import WhatsAppMcp.Controller.Scheduler.ChatWorker

/-!
# A fresh event is prompted

A worker that holds its chat, finds no marker and no turn begun, and whose ports
answer, gets to its prompt.

All its calls run at one time, so that its leases stay alive.  `Standing` is
what the worker needs at a stage, and `Reaches` composes the stages.

* `reaches_current`: `context.current()` comes back to a worker that holds its chat.
* `fresh_event_prompted`: from a claim to the prompt.
-/

namespace WhatsAppMcp.Controller.Scheduler

open Redis
open Trace (Exec)

variable {Fp : Type} [DecidableEq Fp] {chats : List String} {fingerprint : NotificationV2 → Fp}

/-! ## The keys of a holder -/

/-- At time `now` the holder of `args` finds its chat after `cursor` events, with
this session and this turn, and not paused. -/
structure Held (now : Nat) (args : WorkArgs Fp) (cursor : Nat) (session : Option SessionBinding)
    (turn : Option String) (k : Keys Fp) : Prop where
  work : ∃ e, k.work (.frozen now) args = some e
  cursor : k.cursor = cursor.repr
  pause : k.state.pause = none
  session : k.state.session = session
  turn : k.state.turnEvent = turn

section Held

variable {now cursor : Nat} {args : WorkArgs Fp} {session : Option SessionBinding}
  {turn : Option String} {k : Keys Fp}

theorem Held.of_lease {k' : Keys Fp} (h : Held now args cursor session turn k)
    (hstate : k'.state = k.barrier.state) (happ : k'.app = k.app) (hevents : k'.events = k.events)
    {untilMs : Option Nat} (hlease : k'.lease = { k.lease with untilMs := untilMs })
    (huntil : now < untilMs.getD 0) : Held now args cursor session turn k' := by
  obtain ⟨e, he⟩ := h.work
  obtain ⟨⟨halive, ⟨howner, hepoch, -⟩, hsame⟩, hrecord, hid, hfp, hevent⟩ := work_eq_some he
  refine ⟨⟨e, ?_⟩, ?_, ?_, ?_, ?_⟩
  · have hfenced : k'.Fenced (.frozen now) args := by
      rw [Keys.Fenced, happ, hlease]
      exact ⟨halive, ⟨howner, hepoch, huntil⟩, hsame⟩
    have hevent' : k'.lease.event = some args.eventId := by rw [hlease]; exact hevent
    simp [Keys.work, hfenced, hevents, hrecord, hid, hfp, hevent']
  · rw [ChatKeys.cursor, hstate]
    exact h.cursor
  · rw [hstate]; exact h.pause
  · rw [hstate]; exact h.session
  · rw [hstate]; exact h.turn

/-- A call of the holder gets past `work()`. -/
theorem Held.guarded_eq (h : Held now args cursor session turn k)
    {body : EventRecord Fp → Reply Fp × Keys Fp} {answer : Reply Fp × Keys Fp}
    (hbody : ∀ e, body e = answer) : guarded (.frozen now) k args body = answer := by
  obtain ⟨e, he⟩ := h.work
  rw [guarded, he]
  exact hbody e

theorem Held.renew (h : Held now args cursor session turn k) {leaseMs : Nat} (hlease : 0 < leaseMs) :
    ∃ k', Redis.renew (.frozen now) k args leaseMs = (.fence args.chatEpoch (now + leaseMs), k') ∧
      Held now args cursor session turn k' :=
  ⟨_, h.guarded_eq fun _ => rfl, h.of_lease rfl rfl rfl rfl (Nat.lt_add_of_pos_right hlease)⟩

theorem Held.barrier (h : Held now args cursor session turn k) :
    Held now args cursor session turn k.barrier := by
  obtain ⟨e, he⟩ := h.work
  exact h.of_lease rfl rfl rfl rfl (work_eq_some he).1.2.1.2.2

theorem Held.checkWork (h : Held now args cursor session turn k) :
    Redis.checkWork (.frozen now) k args =
      (.deadlines (k.app.untilMs.getD 0) (k.lease.untilMs.getD 0), k.barrier) :=
  h.guarded_eq fun _ => rfl

theorem Held.turnState (h : Held now args cursor session none k) :
    Redis.turnState (.frozen now) k args = (.turn none, k) :=
  h.guarded_eq fun _ => by rw [h.turn]

theorem Held.read (h : Held now args cursor session turn k) :
    Redis.read k = (.chat cursor.repr session none k.state.gap, k) := by
  rw [Redis.read, h.cursor, h.session, h.pause]

theorem Held.bind (h : Held now args cursor session turn k) {opened : SessionBinding}
    (hopened : ∀ old, session = some old → old = opened) :
    ∃ k', Redis.bind (.frozen now) k args opened = (.ok, k') ∧
      Held now args cursor (some opened) turn k' := by
  have hold : ¬ ∃ old, k.state.session = some old ∧ old ≠ opened := by
    rintro ⟨old, hsession, hne⟩
    exact hne (hopened old (h.session ▸ hsession))
  refine ⟨_, h.guarded_eq fun _ => by rw [if_neg hold], ?_⟩
  have hbarrier := h.barrier
  exact ⟨hbarrier.work, hbarrier.cursor, hbarrier.pause, rfl, hbarrier.turn⟩

theorem Held.beginTurn (h : Held now args cursor session none k) :
    ∃ k', Redis.beginTurn (.frozen now) k args = (.ok, k') ∧
      Held now args cursor session (some args.eventId) k' := by
  refine ⟨_, h.guarded_eq fun _ => by rw [if_neg (by rw [h.turn]; decide)], ?_⟩
  have hbarrier := h.barrier
  exact ⟨hbarrier.work, hbarrier.cursor, hbarrier.pause, hbarrier.session, rfl⟩

end Held

/-! ## From stage to stage -/

/-- The worker is at `pc` of its first turn for the event, with these arguments. -/
structure Worker.At (fingerprint : NotificationV2 → Fp) (event : NotificationV2)
    (args : WorkArgs Fp) (pc : WorkerPc Fp) (w : Worker Fp) : Prop where
  pc : w.pc = pc
  lost : w.lost = false
  prompted : w.prompted = false
  event : w.work.event = event
  args : argsFor fingerprint w.work = args

/-- No marker of the event is durable. -/
def Unmarked (s : System Fp) (event : NotificationV2) : Prop :=
  ∀ m ∈ s.markers, ¬ (m.canonicalChatId = event.canonicalChatJid ∧ m.eventId = event.eventId)

/-- Worker `i` is at `pc` and holds its chat at time `now`. -/
structure Standing (fingerprint : NotificationV2 → Fp) (now : Nat) (i : Nat)
    (event : NotificationV2) (args : WorkArgs Fp) (pc : WorkerPc Fp)
    (session : Option SessionBinding) (turn : Option String) (p : Pool Fp) : Prop where
  worker : ∃ w, p.workers i = some w ∧ w.At fingerprint event args pc
  time : p.base.store.time ≤ now
  held : Held now args (event.chatSequence - 1) session turn (p.base.store.keys event.canonicalChatJid)
  unmarked : Unmarked p.base event

/-- From every state that satisfies `P` a run leads to one that satisfies `Q`. -/
def Reaches (chats : List String) (fingerprint : NotificationV2 → Fp) (P Q : Pool Fp → Prop) : Prop :=
  ∀ p, P p → ∃ ds q, Exec (Pool.Step .durable chats fingerprint) p ds q ∧ Q q

theorem Reaches.trans {P Q R : Pool Fp → Prop} (h : Reaches chats fingerprint P Q)
    (hrest : Reaches chats fingerprint Q R) : Reaches chats fingerprint P R := by
  intro p hp
  obtain ⟨ds, q, hrun, hq⟩ := h p hp
  obtain ⟨es, r, hrun', hr⟩ := hrest q hq
  exact ⟨ds ++ es, r, hrun.append hrun', hr⟩

section Stages

variable {now i : Nat} {event : NotificationV2} {args : WorkArgs Fp} {pc pc' : WorkerPc Fp}
  {session session' : Option SessionBinding} {turn turn' : Option String}

/-- A worker that moves without the store. -/
theorem reaches_quiet
    (hmove : ∀ s w, w.At fingerprint event args pc → ∃ w', w'.At fingerprint event args pc' ∧
      Worker.Step .durable chats fingerprint i s w (.call none) s w') :
    Reaches chats fingerprint (Standing fingerprint now i event args pc session turn)
      (Standing fingerprint now i event args pc' session turn) := by
  intro p hp
  obtain ⟨w, hw, hat⟩ := hp.worker
  obtain ⟨w', hat', hstep⟩ := hmove p.base w hat
  exact ⟨_, _, .single (.worker hw hstep), ⟨w', Pool.move_self .., hat'⟩, hp.time, hp.held,
    hp.unmarked⟩

/-- A worker that calls a script which leaves it its chat, with a reply in `P`. -/
theorem reaches_call (op : Op Fp) (P : Reply Fp → Prop)
    (hissued : Call.Issued chats fingerprint ⟨event.canonicalChatJid, op, .frozen now⟩)
    (hready : ∀ s : System Fp, Discipline.durable.Ready s ⟨event.canonicalChatJid, op, .frozen now⟩)
    (hrun : ∀ k, Held now args (event.chatSequence - 1) session turn k →
      ∃ r k', op.run (.frozen now) k = (r, k') ∧ P r ∧
        Held now args (event.chatSequence - 1) session' turn' k')
    (hmove : ∀ s w r l t, P r → w.At fingerprint event args pc →
      Calls .durable chats fingerprint s w.work op r l t →
      ∃ w', w'.At fingerprint event args pc' ∧
        Worker.Step .durable chats fingerprint i s w (.call l) t w') :
    Reaches chats fingerprint (Standing fingerprint now i event args pc session turn)
      (Standing fingerprint now i event args pc' session' turn') := by
  rintro p ⟨⟨w, hw, hat⟩, htime, hheld, hunmarked⟩
  obtain ⟨r, k', hreply, hr, hheld'⟩ := hrun _ hheld
  obtain rfl := hat.event
  have hcall : Calls .durable chats fingerprint p.base w.work op r _ _ :=
    .mk (.call hissued htime (fun _ => le_refl now) hreply) (hready p.base)
  obtain ⟨w', hat', hstep⟩ := hmove _ _ _ _ _ hr hat hcall
  refine ⟨_, _, .single (.worker hw hstep), ⟨w', Pool.move_self .., hat'⟩, le_refl now, ?_, hunmarked⟩
  simpa [Pool.move] using hheld'

omit [DecidableEq Fp] in
theorem Worker.At.move {w : Worker Fp} (h : w.At fingerprint event args pc) (reason : PauseReason)
    (pc' : WorkerPc Fp) : Worker.At fingerprint event args pc' { w with reason := reason, pc := pc' } :=
  ⟨rfl, h.lost, h.prompted, h.event, h.args⟩

/-- `context.current()` comes back. -/
theorem reaches_current (hchat : event.canonicalChatJid ∈ chats) {next : Stage Fp} :
    Reaches chats fingerprint
      (Standing fingerprint now i event args (.current next) session turn)
      (Standing fingerprint now i event args (.await next) session turn) := by
  have hrenew : Reaches chats fingerprint
      (Standing fingerprint now i event args (.current next) session turn)
      (Standing fingerprint now i event args (.check next) session turn) := by
    refine reaches_call (.renew args 1) (fun r => r = .fence args.chatEpoch (now + 1))
      ⟨hchat, trivial⟩ (fun _ => trivial) (fun k hk => ?_) fun s w r l t hr hat hcall => ?_
    · obtain ⟨k', hrun, hheld⟩ := hk.renew Nat.one_pos
      exact ⟨_, k', hrun, rfl, hheld⟩
    · subst hr
      obtain ⟨hpc, hlost, hprompted, hevent, hargs⟩ := hat
      refine ⟨{ w.renewed args.chatEpoch (now + 1) with pc := .check next },
        ⟨rfl, hlost, hprompted, hevent, ?_⟩, .renew hpc hlost (by rw [hargs]; exact hcall)⟩
      rw [← hargs]
      rfl
  refine hrenew.trans ?_
  refine reaches_call (.checkWork args) (fun r => ∃ a b, r = .deadlines a b)
    ⟨hchat, trivial⟩ (fun _ => trivial) (fun k hk => ?_) fun s w r l t hr hat hcall => ?_
  · exact ⟨_, _, hk.checkWork, ⟨_, _, rfl⟩, hk.barrier⟩
  · obtain ⟨a, b, rfl⟩ := hr
    exact ⟨_, hat.move w.reason _, .check hat.pc (by rw [hat.args]; exact hcall)⟩

/-- A stage without a call, up to the next `context.current()` or await. -/
theorem reaches_stage {stage : Stage Fp} (next : WorkerPc Fp)
    (hstep : ∀ s w, w.At fingerprint event args (.await stage) → ∃ reason,
      Worker.Step .durable chats fingerprint i s w (.call none) s
        { w with reason := reason, pc := next }) :
    Reaches chats fingerprint
      (Standing fingerprint now i event args (.await stage) session turn)
      (Standing fingerprint now i event args next session turn) :=
  reaches_quiet fun s w hat =>
    let ⟨reason, h⟩ := hstep s w hat
    ⟨_, hat.move reason _, h⟩

theorem reaches_lookup (hchat : event.canonicalChatJid ∈ chats) :
    Reaches chats fingerprint
      (Standing fingerprint now i event args (.await .readChat) session turn)
      (Standing fingerprint now i event args (.await (.ownMutation session)) session turn) := by
  rintro p ⟨⟨w, hw, hat⟩, htime, hheld, hunmarked⟩
  obtain rfl := hat.event
  have hread : Store.Step chats fingerprint p.base.store
      (some (⟨w.work.event.canonicalChatJid, .read, .frozen now⟩, _)) _ :=
    .call ⟨hchat, trivial⟩ htime (fun _ => le_refl now) hheld.read
  have hnext : w.work.event.chatSequence - 1 + 1 = w.work.event.chatSequence :=
    Nat.sub_add_cancel w.work.event.chatSequence_pos
  have hcall : Calls .durable chats fingerprint p.base w.work .read _ _ _ := .mk hread trivial
  have hrun := Exec.single (Pool.Step.worker hw (.readChat hat.pc hcall hnext))
  refine ⟨_, _, hrun.snoc (.worker (Pool.move_self ..) (.absent rfl fun m hm => ?_)),
    ⟨_, Pool.move_self .., hat.move w.reason _⟩, le_refl now, ?_, hunmarked⟩
  · exact hunmarked m (List.mem_of_mem_take hm)
  · simpa [Pool.move] using hheld

/-- From the lookup to the bound session. -/
theorem reaches_bound (hchat : event.canonicalChatJid ∈ chats) {opened : SessionBinding}
    (hopened : opened.canonicalChatId = event.canonicalChatJid)
    (hsession : ∀ old, session = some old → old = opened) :
    Reaches chats fingerprint
      (Standing fingerprint now i event args (.await (.ownMutation session)) session none)
      (Standing fingerprint now i event args (.current (.hostAttach .manual opened))
        (some opened) none) := by
  refine (reaches_stage (.await (.turnState session)) fun s w hat =>
    ⟨w.reason, .ownMutation hat.pc⟩).trans ?_
  have hturn : Reaches chats fingerprint
      (Standing fingerprint now i event args (.await (.turnState session)) session none)
      (Standing fingerprint now i event args (.await (.classifyOwn session)) session none) := by
    refine reaches_call (.turnState args) (fun r => r = .turn none) ⟨hchat, trivial⟩
      (fun _ => trivial) (fun k hk => ⟨_, _, hk.turnState, rfl, hk⟩) ?_
    rintro s w r l t rfl hat hcall
    exact ⟨_, hat.move w.reason _, .turnState hat.pc (by rw [hat.args]; exact hcall)⟩
  refine hturn.trans ?_
  refine (reaches_stage (.current (.openSession session .manual)) fun s w hat =>
    ⟨w.reason, .classifyOwn hat.pc (by decide) fun _ => rfl⟩).trans ?_
  refine (reaches_current hchat).trans ?_
  refine (reaches_stage (.current (.bindSession session .manual opened)) fun s w hat =>
    ⟨w.reason, .openSession opened hat.pc⟩).trans ?_
  refine (reaches_current hchat).trans ?_
  refine reaches_call (.bind args opened) (fun r => r = .ok) ⟨hchat, trivial⟩
    (fun _ => trivial) (fun k hk => ?_) ?_
  · obtain ⟨k', hrun, hheld⟩ := hk.bind hsession
    exact ⟨_, k', hrun, rfl, hheld⟩
  · rintro s w r l t rfl hat hcall
    exact ⟨_, hat.move w.reason _, .bindSession hat.pc (by rw [hat.event]; exact hopened) hsession
      (by rw [hat.args]; exact hcall)⟩

/-- From the bound session to the prompt. -/
theorem reaches_prompt (hchat : event.canonicalChatJid ∈ chats) {opened : SessionBinding} :
    Reaches chats fingerprint
      (Standing fingerprint now i event args (.current (.hostAttach .manual opened))
        (some opened) none)
      (Standing fingerprint now i event args (.await (.prompt opened))
        (some opened) (some args.eventId)) := by
  refine (reaches_current hchat).trans ?_
  refine (reaches_stage (.current (.attach .manual opened)) fun s w hat =>
    ⟨w.reason, .hostAttach hat.pc⟩).trans ?_
  refine (reaches_current hchat).trans ?_
  refine (reaches_stage (.current (.attached .manual opened)) fun s w hat =>
    ⟨w.reason, .attach hat.pc⟩).trans ?_
  refine (reaches_current hchat).trans ?_
  refine (reaches_stage (.await (.prepare opened)) fun s w hat =>
    ⟨.preparationFailed, .turn hat.pc (by decide)⟩).trans ?_
  refine (reaches_stage (.current (.beginTurn opened)) fun s w hat =>
    ⟨w.reason, .prepare hat.pc⟩).trans ?_
  refine (reaches_current hchat).trans ?_
  have hbegin : Reaches chats fingerprint
      (Standing fingerprint now i event args (.await (.beginTurn opened)) (some opened) none)
      (Standing fingerprint now i event args (.current (.callback opened)) (some opened)
        (some args.eventId)) := by
    refine reaches_call (.beginTurn args) (fun r => r = .ok) ⟨hchat, trivial⟩ (fun _ => trivial)
      (fun k hk => ?_) ?_
    · obtain ⟨k', hrun, hheld⟩ := hk.beginTurn
      exact ⟨_, k', hrun, rfl, hheld⟩
    · rintro s w r l t rfl hat hcall
      exact ⟨_, hat.move .mutationUncertain _, .beginTurn hat.pc (by rw [hat.args]; exact hcall)⟩
  refine hbegin.trans ?_
  refine (reaches_current hchat).trans ?_
  refine (reaches_stage (.current (.prompt opened)) fun s w hat =>
    ⟨w.reason, .callback hat.pc hat.prompted⟩).trans ?_
  exact reaches_current hchat

end Stages

/-- A worker that starts on work it holds, of an event without a marker, in a
chat that waits for this event and has begun no turn, can get to the prompt. -/
theorem fresh_event_prompted {p : Pool Fp} {i now : Nat} {work : ClaimedWork}
    {session : Option SessionBinding} {opened : SessionBinding} (hidle : p.workers i = none)
    (hchat : work.event.canonicalChatJid ∈ chats) (htime : p.base.store.time ≤ now)
    (hheld : Held now (argsFor fingerprint work) (work.event.chatSequence - 1) session none
      (p.base.store.keys work.event.canonicalChatJid))
    (hopened : opened.canonicalChatId = work.event.canonicalChatJid)
    (hsession : ∀ old, session = some old → old = opened)
    (hunmarked : Unmarked p.base work.event) :
    ∃ ds q, Exec (Pool.Step .durable chats fingerprint) p (ds ++ [.prompt i work.event]) q := by
  have hstart : Standing fingerprint now i work.event (argsFor fingerprint work)
      (.current .readChat) session none (p.move i p.base (.initial work)) :=
    ⟨⟨_, Pool.move_self .., rfl, rfl, rfl, rfl, rfl⟩, htime, hheld, hunmarked⟩
  have hway := ((reaches_current hchat).trans ((reaches_lookup hchat).trans
    ((reaches_bound hchat hopened hsession).trans (reaches_prompt hchat)))) _ hstart
  obtain ⟨ds, q, hrun, ⟨w, hw, hat⟩, -⟩ := hway
  have hprompt : Pool.Step .durable chats fingerprint q _ _ := .worker hw (.prompt hat.pc)
  rw [hat.event] at hprompt
  exact ⟨_, _, ((Exec.single (.start work hidle)).append hrun).snoc hprompt⟩

end WhatsAppMcp.Controller.Scheduler
