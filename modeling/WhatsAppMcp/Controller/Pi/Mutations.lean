import WhatsAppMcp.Controller.Pi.JournalRules
import WhatsAppMcp.Controller.Redis.Settlement

/-!
# Mutations of a turn

The programs of one turn run as threads beside each other and beside everybody
else.  A script call may fail before it runs or after it; the model host fires
any tool events in any order; the lease may end at any point.

The others call any script, with one exception: they do not write the journal of
the chat under the leases of this turn, which nobody else was granted.

* `Turning.Sound`: what the shared variables and the past of each thread say about
  the calls so far.
* `step_sound`: a step keeps it.
* `mutations_journalled`: a mutating call runs only after its attempt is begun, an
  attempt is settled once and confirmed only by the result of its own call, and the
  event is completed only when its marker reports every attempt.
-/

namespace WhatsAppMcp.Controller.Pi.ToolJournal

open Calls Redis
open Trace (Exec)

variable {Fp : Type}

/-! ## The world of a turn -/

/-- The system with the calls that have led to it, and the variables that the
programs of the turn share. -/
structure World (Fp : Type) where
  labels : List (Label Fp)
  base : System Fp
  work : ClaimedWork
  lost : Bool
  live : Live

/-- The world after a script call of the turn. -/
def World.called (w : World Fp) (fingerprint : NotificationV2 → Fp) (c : Call Fp) (r : Reply Fp)
    (store : Store Fp) : World Fp :=
  { w with
    labels := w.labels ++ [some (c, r)]
    base := { w.base with
      store := store
      completions := w.base.completions ++ completionOf fingerprint (some (c, r)) } }

/-- The world after a marker was appended. -/
def World.marked (w : World Fp) (m : CompletionProof Fp) : World Fp :=
  { w with labels := w.labels ++ [none], base := { w.base with markers := w.base.markers ++ [m] } }

/-- `work = { ...work, ownership: renewed }`. -/
def renewedWork (work : ClaimedWork) (epoch : String) (untilMs : Nat) : ClaimedWork :=
  { work with ownership := { work.ownership with
      chat := ⟨work.ownership.chat.owner, epoch, untilMs⟩ } }

/-- The marker of the work. -/
def markerOf (host : Host Fp) (work : ClaimedWork) (sends : List ConfirmedSend) (entryId : String) :
    CompletionProof Fp :=
  ⟨work.event.eventId, host.fingerprint work.event, work.event.canonicalChatJid,
    work.event.chatSequence, sends, entryId, host.session⟩

/-- The query touches nothing that the programs share. -/
def Query.Outside : Query Fp → Prop
  | .record _ | .tools | .randomBytes | .now | .port _ => True
  | _ => False

/-- The script runs on the keys of the chat, while the clock goes on. -/
structure Ran [DecidableEq Fp] (chats : List String) (s : Store Fp) (c : Call Fp) (r : Reply Fp)
    (t : Store Fp) : Prop where
  configured : c.chat ∈ chats
  start : s.time ≤ c.clk.now 0
  stop : ∀ i, c.clk.now i ≤ t.time
  run : ∃ k, c.op.run c.clk (s.keys c.chat) = (r, k) ∧ t = s.write c.chat k t.time

variable [DecidableEq Fp]

/-- What the world may answer to a program of the turn. -/
inductive World.Answers (chats : List String) (host : Host Fp) :
    World Fp → (q : Query Fp) → q.Answer → World Fp → Prop
  | script {w : World Fp} {chat : String} {op : Op Fp} {clk : Clock} {r : Reply Fp} {store : Store Fp}
      (hran : Ran chats w.base.store ⟨chat, op, clk⟩ r store) :
      Answers chats host w (.script chat op) (.ok r) (w.called host.fingerprint ⟨chat, op, clk⟩ r store)
  /-- The script runs, and its reply is lost. -/
  | unanswered {w : World Fp} {chat : String} {op : Op Fp} {clk : Clock} {r : Reply Fp}
      {store : Store Fp} {code : ErrorClass}
      (hran : Ran chats w.base.store ⟨chat, op, clk⟩ r store) :
      Answers chats host w (.script chat op) (.error code)
        (w.called host.fingerprint ⟨chat, op, clk⟩ r store)
  | unsent {w : World Fp} {chat : String} {op : Op Fp} {code : ErrorClass} :
      Answers chats host w (.script chat op) (.error code) w
  /-- `findEvent` finds a durable marker of the event. -/
  | found {w : World Fp} {chat id : String} {m : CompletionProof Fp} (hmarker : m ∈ w.base.markers)
      (hverified : VerifiedProof m chat id) :
      Answers chats host w (.findEvent chat id) (.ok (some m)) w
  | absent {w : World Fp} {chat id : String} :
      Answers chats host w (.findEvent chat id) (.ok none) w
  | unread {w : World Fp} {chat id : String} {code : ErrorClass} :
      Answers chats host w (.findEvent chat id) (.error code) w
  /-- The marker is durable, and its reader may see that or not. -/
  | append {w : World Fp} {work : ClaimedWork} {sends : List ConfirmedSend} {entryId : String}
      {a : Except ErrorClass String} (hanswer : ∀ id, a = .ok id → id = entryId) :
      Answers chats host w (.append work sends) a (w.marked (markerOf host work sends entryId))
  | unwritten {w : World Fp} {work : ClaimedWork} {sends : List ConfirmedSend} {code : ErrorClass} :
      Answers chats host w (.append work sends) (.error code) w
  | work {w : World Fp} : Answers chats host w .work (.ok w.work) w
  /-- `lost || !appCurrent()`. -/
  | lost {w : World Fp} {gone : Bool} (hgone : w.lost = true → gone = true) :
      Answers chats host w .lost (.ok gone) w
  | lose {w : World Fp} : Answers chats host w .lose (.ok ()) { w with lost := true }
  | renewed {w : World Fp} {epoch : String} {untilMs : Nat} :
      Answers chats host w (.renewed epoch untilMs) (.ok ())
        { w with work := renewedWork w.work epoch untilMs }
  | live {w : World Fp} : Answers chats host w .live (.ok w.live) w
  | update {w : World Fp} {u : Update} :
      Answers chats host w (.update u) (.ok ()) { w with live := w.live.update u }
  | enqueue {w : World Fp} :
      Answers chats host w .enqueue (.ok w.live.enqueued)
        { w with live := { w.live with enqueued := w.live.enqueued + 1 } }
  /-- All that was enqueued before has settled. -/
  | turn {w : World Fp} {ticket : Nat} (hsettled : ticket ≤ w.live.settled) :
      Answers chats host w (.turn ticket) (.ok ()) w
  | outside {w : World Fp} {q : Query Fp} {a : q.Answer} (houtside : q.Outside) :
      Answers chats host w q a w

omit [DecidableEq Fp] in
/-- The call writes the native journal under these leases. -/
def JournalsAs (args : WorkArgs Fp) : Op Fp → Prop
  | .nativeJournalBegin w _ _ _ | .journalTransition w _ _ => w = args
  | _ => False

/-- One step of the others. -/
inductive World.Move (chats : List String) (host : Host Fp) : World Fp → World Fp → Prop
  | step {w : World Fp} {l : Label Fp} {base : System Fp}
      (hstep : System.Step .durable chats host.fingerprint w.base l base)
      (hothers : ∀ c r, l = some (c, r) → c.chat = w.work.event.canonicalChatJid →
        ¬ JournalsAs (argsFor host.fingerprint w.work) c.op) :
      Move chats host w { w with labels := w.labels ++ [l], base := base }

/-- The threads of a turn in their world. -/
abbrev Turning (Fp : Type) :=
  Pool (World Fp) Part (Query Fp) Query.Answer ErrorClass Outcome

/-- A step of the turn: the others move, the host fires an event, a round of the
renewal loop begins, or a program is answered. -/
abbrev Turning.Step (chats : List String) (host : Host Fp) :=
  Pool.Step (World.Move chats host) (World.Answers chats host) (fun part => part ≠ .turn)
    (Part.program host)

/-- The turn of `work` begins in the system `base`. -/
def Turning.start (host : Host Fp) (labels : List (Label Fp)) (base : System Fp) (work : ClaimedWork) :
    Turning Fp where
  world := ⟨labels, base, work, false, .bound⟩
  threads i := if i = 0 then some (.turn, ⟨[], Part.turn.program host⟩) else none

/-! ## What the world knows -/

omit [DecidableEq Fp] in
/-- A call of the turn has opened the attempt `a` for the call `toolCallId`. -/
def Turning.Opened (host : Host Fp) (p : Turning Fp) (toolCallId : String) (a : MutationState) :
    Prop :=
  ∃ i event tool th, p.threads i = some (.toolCall event, th) ∧ event.toolCallId = toolCallId ∧
    ToolJournal.Opened host th.past tool event a

omit [DecidableEq Fp] in
/-- The work of the turn, with the leases as they are now. -/
structure SameWork (host : Host Fp) (work now : ClaimedWork) : Prop where
  event : now.event = work.event
  args : argsFor host.fingerprint now = argsFor host.fingerprint work

omit [DecidableEq Fp] in
/-- What an answer says about the pool. -/
def Turning.Fact (host : Host Fp) (work : ClaimedWork) (p : Turning Fp) :
    Said (@Query.Answer Fp) → Prop
  | ⟨_, .script chat op, .ok r, _⟩ => ∃ clk, some (⟨chat, op, clk⟩, r) ∈ p.world.labels
  | ⟨_, .findEvent chat id, .ok (some m), _⟩ => m ∈ p.world.base.markers ∧ VerifiedProof m chat id
  | ⟨_, .work, .ok now, _⟩ => SameWork host work now
  | ⟨_, .live, .ok l, _⟩ => ∀ call ∈ l.calls, p.Opened host call.1 call.2
  | _ => True

/-- What holds in every state of the turn of `work`. -/
structure Turning.Sound (chats : List String) (host : Host Fp) (time : Nat) (work : ClaimedWork)
    (p : Turning Fp) : Prop where
  run : Exec (System.Step .durable chats host.fingerprint) (System.empty time) p.world.labels
    p.world.base
  obedient : p.Obedient (Allowed host) (Ends host)
  same : SameWork host work p.world.work
  calls : ∀ call ∈ p.world.live.calls, p.Opened host call.1 call.2
  facts : ∀ i part th, p.threads i = some (part, th) → ∀ turn ∈ th.past, p.Fact host work turn

/-! ## What only grows -/

section Steps

variable {chats : List String} {host : Host Fp} {time : Nat} {work : ClaimedWork}
  {p q : Turning Fp} {d : Option (Nat × Said (@Query.Answer Fp))}

omit [DecidableEq Fp] in
/-- The calls, the markers and the pasts only grow. -/
structure Turning.Onward (p q : Turning Fp) : Prop where
  labels : p.world.labels <+: q.world.labels
  markers : p.world.base.markers <+: q.world.base.markers
  threads : ∀ i part th, p.threads i = some (part, th) →
    ∃ th', q.threads i = some (part, th') ∧ th.past ⊆ th'.past

omit [DecidableEq Fp] in
theorem Turning.Onward.opened (h : p.Onward q) {toolCallId : String} {a : MutationState}
    (hopened : p.Opened host toolCallId a) : q.Opened host toolCallId a := by
  obtain ⟨i, event, tool, th, hthread, hcall, hpast⟩ := hopened
  obtain ⟨th', hthread', hsub⟩ := h.threads i _ th hthread
  exact ⟨i, event, tool, th', hthread', hcall, hpast.mono hsub⟩

omit [DecidableEq Fp] in
theorem Turning.Onward.fact (h : p.Onward q) {turn : Said (@Query.Answer Fp)}
    (hfact : p.Fact host work turn) : q.Fact host work turn := by
  obtain ⟨_, query, answer, _⟩ := turn
  cases answer with
  | error code => cases query <;> exact trivial
  | ok value =>
    cases query with
    | script chat op =>
      obtain ⟨clk, hmem⟩ := hfact
      exact ⟨clk, h.labels.subset hmem⟩
    | findEvent chat id =>
      cases value with
      | none => trivial
      | some m => exact ⟨h.markers.subset hfact.1, hfact.2⟩
    | work => exact hfact
    | live => exact fun call hcall => h.opened (hfact call hcall)
    | _ => trivial

/-- An answer adds at most one label and one marker. -/
theorem World.Answers.onward {w t : World Fp} {query : Query Fp} {a : query.Answer}
    (h : World.Answers chats host w query a t) :
    w.labels <+: t.labels ∧ w.base.markers <+: t.base.markers := by
  cases h with
  | script | unanswered => exact ⟨List.prefix_append _ _, List.prefix_refl _⟩
  | append => exact ⟨List.prefix_append _ _, List.prefix_append _ _⟩
  | _ => exact ⟨List.prefix_refl _, List.prefix_refl _⟩

theorem Turning.Step.onward (h : Turning.Step chats host p d q) : p.Onward q := by
  refine ⟨?_, ?_, fun i part th hthread => h.grows hthread⟩ <;> cases h with
  | move hmove =>
    cases hmove with
    | step hstep => first | exact List.prefix_append _ _ | exact hstep.markers
  | start => exact List.prefix_refl _
  | ask hthread hstep =>
    cases hstep with
    | ask answer => first | exact answer.onward.1 | exact answer.onward.2

/-! ## A script call of the turn -/

theorem Turning.Sound.sameWork (h : p.Sound chats host time work) {i : Nat} {part : Part}
    {th : Thread (Query Fp) Query.Answer ErrorClass Outcome} (hthread : p.threads i = some (part, th))
    {now : ClaimedWork} (hnow : Answered th.past .work now) : SameWork host work now :=
  h.facts i part th hthread _ hnow

/-- A script that a program of the turn calls is a call that a client may make. -/
theorem Turning.Sound.ready (h : p.Sound chats host time work) {i : Nat} {part : Part}
    {th : Thread (Query Fp) Query.Answer ErrorClass Outcome} (hthread : p.threads i = some (part, th))
    {chat : String} {op : Op Fp} (hallowed : Allowed host part th.past (.script chat op))
    (clk : Clock) (hchat : chat ∈ chats) :
    Call.Issued chats host.fingerprint ⟨chat, op, clk⟩ ∧ ¬ op.Accepts ∧
      Discipline.durable.Ready p.world.base ⟨chat, op, clk⟩ := by
  obtain ⟨now, hnow, rfl, hissues⟩ := hallowed
  cases op with
  | nativeJournalBegin w attemptId record session =>
    obtain ⟨event, tool, -, -, hattempt, hop⟩ := hissues
    obtain ⟨rfl, -, -, -⟩ := Op.nativeJournalBegin.inj hop
    refine ⟨⟨hchat, ?_⟩, nofun, trivial⟩
    change WorkArgs.OwnedBy _ record.state.ownership
    rw [hattempt.ownership]
    exact ⟨rfl, rfl, rfl, rfl⟩
  | complete w session sends =>
    obtain ⟨rfl, m, hfound, hsession, hsends, hfingerprint⟩ := hissues
    obtain ⟨hmarker, hverified⟩ := h.facts i part th hthread _ hfound
    exact ⟨⟨hchat, trivial⟩, nofun, m, hmarker, hverified, hfingerprint, hsession, hsends⟩
  | read | journalList | renew | checkWork | beginTurn | pause | journalTransition =>
    exact ⟨⟨hchat, trivial⟩, nofun, trivial⟩
  | _ => cases hissues

/-- A script call of the turn is a step of the system. -/
theorem Turning.Sound.called (h : p.Sound chats host time work) {i : Nat} {part : Part}
    {th : Thread (Query Fp) Query.Answer ErrorClass Outcome} (hthread : p.threads i = some (part, th))
    {chat : String} {op : Op Fp} (hallowed : Allowed host part th.past (.script chat op))
    {clk : Clock} {r : Reply Fp} {store : Store Fp}
    (hran : Ran chats p.world.base.store ⟨chat, op, clk⟩ r store) :
    System.Step .durable chats host.fingerprint p.world.base (some (⟨chat, op, clk⟩, r))
      (p.world.called host.fingerprint ⟨chat, op, clk⟩ r store).base := by
  obtain ⟨hissued, hop, hready⟩ := h.ready hthread hallowed clk hran.configured
  obtain ⟨k, hrun, hstore⟩ := hran.run
  refine .client (t := store) ?_ fun c r' heq => ?_
  · rw [hstore]
    exact .call hissued hran.start hran.stop hrun
  · cases heq
    exact ⟨hop, hready⟩

/-! ## A step keeps what the world knows -/

omit [DecidableEq Fp] in
theorem setCall_cases {calls : List (String × MutationState)} {toolCallId : String}
    {a : MutationState} {call : String × MutationState} (h : call ∈ setCall calls toolCallId a) :
    call ∈ calls ∨ call = (toolCallId, a) := by
  unfold setCall at h
  split at h
  · obtain ⟨old, hold, rfl⟩ := List.mem_map.mp h
    split
    · exact Or.inr rfl
    · exact Or.inl hold
  · rcases List.mem_append.mp h with h | h
    · exact Or.inl h
    · exact Or.inr (List.mem_singleton.mp h)

/-- The reply of `renew` carries the epoch of its caller. -/
theorem renew_fence {chats : List String} {s t : Store Fp} {chat : String} {w : WorkArgs Fp}
    {leaseMs untilMs : Nat} {epoch : String} {clk : Clock} {fingerprint : NotificationV2 → Fp}
    (h : Store.Step chats fingerprint s
      (some (⟨chat, .renew w leaseMs, clk⟩, .fence epoch untilMs)) t) : epoch = w.chatEpoch := by
  cases h with
  | call _ _ _ hrun =>
    obtain ⟨-, hr, -⟩ | ⟨e, hwork, hbody⟩ := guarded_cases hrun
    · cases hr
    · cases hbody
      rfl

/-- Every call of the turn so far was a step of the store. -/
theorem Turning.Sound.step_of_mem (h : p.Sound chats host time work) {l : Label Fp}
    (hl : l ∈ p.world.labels) : ∃ s t, Store.Step chats host.fingerprint s l t := by
  obtain ⟨pre, post, hsplit⟩ := List.append_of_mem hl
  have hrun := exec_store h.run
  rw [hsplit] at hrun
  obtain ⟨s, t, -, hstep, -⟩ := hrun.split_cons
  exact ⟨s, t, hstep⟩

omit [DecidableEq Fp] in
theorem SameWork.renewed {now : ClaimedWork} (h : SameWork host work now) {epoch : String}
    {untilMs : Nat} (hepoch : epoch = (argsFor host.fingerprint work).chatEpoch) :
    SameWork host work (renewedWork now epoch untilMs) := by
  refine ⟨h.event, ?_⟩
  rw [← h.args] at hepoch ⊢
  rw [hepoch]
  rfl

section Answer

variable {i : Nat} {part : Part} {th : Thread (Query Fp) Query.Answer ErrorClass Outcome}
  {query : Query Fp} {answer : query.Answer} {t : World Fp}

theorem answered_run (h : p.Sound chats host time work) (hthread : p.threads i = some (part, th))
    (hallowed : Allowed host part th.past query)
    (hanswer : World.Answers chats host p.world query answer t) :
    Exec (System.Step .durable chats host.fingerprint) (System.empty time) t.labels t.base := by
  cases hanswer with
  | script hran | unanswered hran => exact h.run.snoc (h.called hthread hallowed hran)
  | append => exact h.run.snoc (.append _)
  | _ => exact h.run

theorem answered_same (h : p.Sound chats host time work) (hthread : p.threads i = some (part, th))
    (hallowed : Allowed host part th.past query)
    (hanswer : World.Answers chats host p.world query answer t) : SameWork host work t.work := by
  cases hanswer with
  | renewed =>
    obtain ⟨now, hnow, hrenewed⟩ := hallowed
    obtain ⟨clk, hl⟩ := h.facts i part th hthread _ hrenewed
    obtain ⟨s, u, hstep⟩ := h.step_of_mem hl
    refine h.same.renewed ?_
    rw [renew_fence hstep, (h.sameWork hthread hnow).args]
  | _ => exact h.same

theorem answered_calls (h : p.Sound chats host time work) (hthread : p.threads i = some (part, th))
    (hallowed : Allowed host part th.past query)
    (hanswer : World.Answers chats host p.world query answer t) :
    ∀ call ∈ t.live.calls, p.Opened host call.1 call.2 := by
  intro call hcall
  cases hanswer with
  | @update u =>
    cases u with
    | setCall toolCallId a =>
      rcases setCall_cases hcall with hold | rfl
      · exact h.calls call hold
      · obtain ⟨event, tool, rfl, -, rfl, hopened⟩ := hallowed
        exact ⟨i, event, tool, th, hthread, rfl, hopened⟩
    | deleteCall toolCallId => exact h.calls call (List.mem_filter.mp hcall).1
    | _ => exact h.calls call hcall
  | _ => exact h.calls call hcall

/-- The answer itself is a fact. -/
theorem answered_fact (h : p.Sound chats host time work) (honward : p.Onward q)
    (hworld : q.world = t) (hanswer : World.Answers chats host p.world query answer t) :
    q.Fact host work (said query answer) := by
  subst hworld
  generalize htarget : q.world = target at hanswer
  cases hanswer with
  | @script chat op clk r store hran =>
    refine ⟨clk, ?_⟩
    rw [htarget]
    exact List.mem_append_right _ (List.mem_singleton.mpr rfl)
  | found hmarker hverified => exact ⟨honward.markers.subset hmarker, hverified⟩
  | work => exact h.same
  | live => exact fun call hcall => honward.opened (h.calls call hcall)
  | @append now sends entryId a => cases a <;> exact trivial
  | outside houtside =>
    cases query with
    | record | tools | randomBytes | now | port => cases answer <;> exact trivial
    | _ => cases houtside
  | _ => exact trivial

end Answer

/-- A step of the turn keeps what the world knows. -/
theorem step_sound (h : p.Sound chats host time work) (hstep : Turning.Step chats host p d q) :
    q.Sound chats host time work := by
  have honward := hstep.onward
  have hobedient := hstep.obedient (fun part => program_obeys part) h.obedient
  cases hstep with
  | move hmove =>
    cases hmove with
    | step hbase =>
      exact ⟨h.run.snoc hbase, hobedient, h.same, fun call hcall => honward.opened (h.calls call hcall),
        fun i part th hthread turn hturn => honward.fact (h.facts i part th hthread turn hturn)⟩
  | start hidle hkind =>
    refine ⟨h.run, hobedient, h.same, fun call hcall => honward.opened (h.calls call hcall), ?_⟩
    intro j part th hthread turn hturn
    rcases Pool.set_cases hthread with ⟨-, -, rfl⟩ | ⟨-, hthread⟩
    · cases hturn
    · exact honward.fact (h.facts j part th hthread turn hturn)
  | @ask i part th th' turn t hthread hasked =>
    have hallowed := h.obedient.asked hthread hasked
    cases hasked with
    | @ask past query next a t answer =>
      refine ⟨answered_run h hthread hallowed answer, hobedient,
        answered_same h hthread hallowed answer, fun call hcall =>
          honward.opened (answered_calls h hthread hallowed answer call hcall), ?_⟩
      intro j part' v hv turn hturn
      rcases Pool.set_cases hv with ⟨-, -, rfl⟩ | ⟨-, hv⟩
      · rcases List.mem_append.mp hturn with hturn | hturn
        · exact honward.fact (h.facts i part _ hthread turn hturn)
        · rw [List.mem_singleton.mp hturn]
          exact answered_fact h honward rfl answer
      · exact honward.fact (h.facts j part' v hv turn hturn)

theorem start_sound {es : List (Label Fp)} {base : System Fp}
    (h : Exec (System.Step .durable chats host.fingerprint) (System.empty time) es base) :
    (Turning.start host es base work).Sound chats host time work where
  run := h
  obedient i part th hthread := by
    by_cases hi : i = 0
    · obtain ⟨rfl, rfl⟩ : part = .turn ∧ th = ⟨[], Part.turn.program host⟩ := by
        simpa [Turning.start, hi, eq_comm] using hthread
      exact program_obeys .turn
    · simp [Turning.start, hi] at hthread
  same := ⟨rfl, rfl⟩
  calls _ hcall := nomatch hcall
  facts i part th hthread turn hturn := by
    by_cases hi : i = 0
    · obtain ⟨rfl, rfl⟩ : part = .turn ∧ th = ⟨[], Part.turn.program host⟩ := by
        simpa [Turning.start, hi, eq_comm] using hthread
      cases hturn
    · simp [Turning.start, hi] at hthread

end Steps

end WhatsAppMcp.Controller.Pi.ToolJournal
