import WhatsAppMcp.Delivery.Link

/-!
# What an accepted row says

A row of the outbox is accepted on the word of the controller.  The word is the answer
of a call of `accept`, which the controller gives for an event that is in its active set
or has a durable marker; and the event is that of the row, since neither the id nor the
chat nor the sequence of an event ever changes on its way.

* `attempt_accepted`: an outcome `accepted` has a response of the intake behind it.
* `Linked` says where the values of an attempt and of its calls come from.
* `Answered.cause`: behind an answer there is a state in which it was true.
* `accepted_truthful` puts these together, over every run of the link.
-/

namespace WhatsAppMcp.Delivery

open Trace (Exec)
open Bridge.Store (Notification OutboxRow OutboxEvent OutboxState Database)
open Bridge.Notify (Body Decoders Exchange Config AttemptEnv payloadBytes attempt)
open Controller (NotificationV2)
open Controller.Intake (Conditions admitted answerOf answerOf_success)
open Controller.Redis (AcceptCall AcceptPc Acceptance Observation)

/-! ## The bridge -/

/-- The notification is made from the event. -/
structure Claims (e : OutboxEvent) (n : Notification) : Prop where
  eventId : n.eventId = e.eventId
  chatJid : n.chatJid = e.chatJid
  metadata : n.schemaVersion = 2 →
    e.canonicalChatJid = some n.canonicalChatJid ∧ e.chatSequence = some n.chatSequence

theorem populate_claims {row : OutboxRow} {n : Notification}
    (h : Bridge.Store.populateClaimedNotification row = .ok n) : Claims row.toOutboxEvent n := by
  unfold Bridge.Store.populateClaimedNotification at h
  dsimp only at h
  split at h
  · next hversion =>
    split at h
    · cases h
    · cases h
      refine ⟨rfl, rfl, fun htwo => ?_⟩
      have hone : row.schemaVersion = 2 := htwo
      omega
  split at h
  · split at h
    · next canonical sequence sender kind fromMe hcanonical hsequence _ _ _ =>
      split at h
      · cases h
      · cases h
        exact ⟨rfl, rfl, fun _ => ⟨hcanonical, hsequence⟩⟩
    · cases h
  · cases h

/-- What a claim hands out is made from a row. -/
theorem claims_of_answer {env : Bridge.Store.Env} {db : Database} {allowed : List String}
    {maxAttempts lease : Int} {n : Notification}
    (h : (Bridge.Store.claimNotification env db allowed maxAttempts lease).2 = .ok (some n)) :
    ∃ row ∈ db.outbox.rows, Claims row.toOutboxEvent n := by
  rcases Bridge.Store.claimNotification_cases env db allowed maxAttempts lease
    with ⟨-, hnone⟩ | ⟨token, result, -, htx, hresult⟩
  · exact absurd h (hnone n)
  rcases Bridge.Store.claimNotificationTx_spec htx with ⟨-, rfl⟩ | ⟨row, n', hrow, -, -, hpopulate, rfl⟩
  · rw [h] at hresult
    simp at hresult
  · obtain rfl : n = n' := by
      rw [h] at hresult
      simpa using hresult
    have hclaims := populate_claims hpopulate
    exact ⟨row, hrow, hclaims.eventId, hclaims.chatJid, hclaims.metadata⟩

/-- The events of the rows are in the history. -/
def Stored (s : Bridge.Store.System) : Prop := ∀ e ∈ s.db.events, e ∈ s.history

theorem history_step {s t : Bridge.Store.System} {c : Bridge.Store.Call} (hstep : s.Step c t) :
    s.history ⊆ t.history := by
  rw [hstep.next]
  exact List.subset_append_left _ _

theorem stored_step {s t : Bridge.Store.System} {c : Bridge.Store.Call} (h : Stored s)
    (hstep : s.Step c t) : Stored t := by
  intro e he
  have hmoves : s.db.OutboxMoves c t.db := (hstep.next ▸ c.moves s.db : s.db.Moves c t.db).outboxMoves
  have hhistory : t.history = s.history ++ s.db.added t.db := by
    rw [hstep.next]
    rfl
  cases hmoves with
  | kept events => exact history_step hstep (h e (events.subset he))
  | @enqueued db₁ m candidate eventId sequence call valid open_ generated outbox sequences added =>
    have hadded : s.db.added t.db = db₁.added t.db := by
      unfold Database.added
      rw [outbox]
    have hevents : db₁.events = s.db.events := by
      unfold Database.events
      rw [outbox]
    rw [added.events, hevents] at he
    rw [hhistory, hadded, added.added]
    exact List.append_subset.mpr ⟨fun e he => List.mem_append_left _ (h e he),
      List.subset_append_right _ _⟩ he

/-- A row becomes accepted by an outcome, which was recorded under its id. -/
theorem finished_of_accepted {c : Bridge.Store.Call} {db : Database} {id : String} {n : OutboxRow}
    (hn : (c.op.run c.env db).outbox.lookup id = some n) (haccepted : n.state = .accepted)
    (hbefore : ∀ n₀, db.outbox.lookup id = some n₀ → n₀.state ≠ .accepted) :
    ∃ claimed outcome n₀, c.op = .finishNotification claimed outcome ∧ outcome.state = .accepted ∧
      db.outbox.lookup id = some n₀ ∧ n₀.toOutboxEvent = n.toOutboxEvent ∧
      n₀.eventId = claimed.eventId := by
  cases hn₀ : db.outbox.lookup id with
  | none =>
    obtain ⟨e, -, -, -, rfl, -⟩ := Bridge.Store.call_adds c hn₀ hn
    cases haccepted
  | some n₀ =>
    have hrewrites := Bridge.Store.call_rewrites c hn₀
    rw [hn] at hrewrites
    cases hrewrites with
    | kept => exact absurd haccepted (hbefore n hn₀)
    | claimed => cases haccepted
    | @finished claimed outcome call held =>
      simp only [OutboxRow.heldBy, Bool.and_eq_true, decide_eq_true_eq] at held
      exact ⟨claimed, outcome, n₀, call, haccepted, rfl, rfl, held.1.1.1⟩
    | maintained =>
      unfold OutboxRow.maintain at haccepted
      dsimp only at haccepted
      split at haccepted
      · cases haccepted
      · cases haccepted

/-- Behind an outcome `accepted` there is a response with status 202 or 200. -/
theorem attempt_accepted {cfg : Config} {decoders : Decoders} {exchange : Body → Exchange}
    {env : AttemptEnv} {n : Notification}
    (h : (attempt cfg decoders exchange env n).state = .accepted) :
    ∃ body r, payloadBytes n = some body ∧ exchange body = .ok r ∧
      (r.statusCode.val = 202 ∨ r.statusCode.val = 200) := by
  have hsettle : ∀ r, (Bridge.Notify.settle cfg env n r).state = .accepted → r.state = .accepted := by
    intro r hr
    unfold Bridge.Notify.settle at hr
    split at hr
    · dsimp only at hr
      split at hr
      · cases hr
      split at hr
      · cases hr
      · cases hr
    · exact hr
  unfold attempt at h
  split at h
  · cases h
  split at h
  · replace h := hsettle _ h
    unfold Bridge.Notify.deliver at h
    split at h
    · cases h
    · next body hbody =>
      split at h
      · next e _ => cases e <;> cases h
      · next r hr =>
        refine ⟨body, r, hbody, hr, ?_⟩
        unfold Bridge.Notify.ofResponse at h
        split at h
        · cases h
        split at h
        · cases h
        unfold Bridge.Notify.ofSuccess at h
        split at h
        · cases h
        split at h
        · cases h
        split at h
        · cases h
        split at h
        · next hack =>
          rcases hack.2 with ⟨hstatus, -⟩ | ⟨hstatus, -⟩
          · exact Or.inl (congrArg Fin.val hstatus)
          · exact Or.inr (congrArg Fin.val hstatus)
        · cases h
  · cases h

/-! ## The controller -/

section Controller

variable {Fp : Type} [DecidableEq Fp] {fingerprint : NotificationV2 → Fp} {chats : List String}
  {D : Controller.Redis.Discipline Fp} {s t : Controller.Redis.System Fp} {l : Controller.Redis.Label Fp}

/-- The event is active, or it has a durable marker. -/
def Held (fingerprint : NotificationV2 → Fp) (s : Controller.Redis.System Fp) (event : NotificationV2) :
    Prop :=
  s.store.Active fingerprint event ∨ s.Marked fingerprint event

/-- The call is one for this event. -/
def CallFor (s : Controller.Redis.System Fp) (i : Nat) (event : NotificationV2) : Prop :=
  ∃ n pc, s.calls i = some ⟨event, n, pc⟩

omit [DecidableEq Fp] in
theorem CallFor.setCall {i j : Nat} {event : NotificationV2} {call : AcceptCall Fp} (h : CallFor s i event)
    (hcall : i = j → call.event = event) : CallFor (s.setCall j call) i event := by
  by_cases hi : i = j
  · obtain ⟨other, n, pc⟩ := call
    obtain rfl := hcall hi
    subst hi
    exact ⟨n, pc, Controller.Redis.System.setCall_self ..⟩
  · obtain ⟨n, pc, hn⟩ := h
    exact ⟨n, pc, (Controller.Redis.System.setCall_of_ne _ _ hi).trans hn⟩

/-- A call keeps its event. -/
theorem callFor_step (hstep : Controller.Redis.System.Step D chats fingerprint s l t) {i : Nat}
    {event : NotificationV2} (h : CallFor s i event) : CallFor t i event := by
  have hsame : ∀ {j n : Nat} {ev : NotificationV2} {pc : AcceptPc Fp}, s.calls j = some ⟨ev, n, pc⟩ →
      i = j → ev = event := by
    rintro j n ev pc hj rfl
    obtain ⟨n', pc', hn⟩ := h
    rw [hj] at hn
    exact congrArg AcceptCall.event (Option.some.inj hn)
  cases hstep with
  | client => exact h
  | append => exact h
  | start _ hidle =>
    refine h.setCall fun hij => ?_
    obtain ⟨n, pc, hn⟩ := h
    rw [hij, hidle] at hn
    cases hn
  | snapshot hcall => exact CallFor.setCall (s := { s with store := _ }) h (hsame hcall)
  | read hcall => exact CallFor.setCall (s := { s with store := _ }) h (hsame hcall)
  | submit hcall =>
    refine CallFor.setCall (s := { s with store := _ }) h fun hij => ?_
    rw [Controller.Redis.afterAccept_event]
    exact hsame hcall hij
  | absent hcall | foreign hcall | own hcall | looked hcall | flush hcall | fail hcall =>
    exact h.setCall (hsame hcall)

/-- An event becomes active by an acceptance, under its id. -/
theorem accepted_of_added {clk : Controller.Redis.Clock} {k : Controller.Redis.Keys Fp}
    {op : Controller.Redis.Op Fp} {r : Controller.Redis.Reply Fp} {d : Controller.Redis.Core Fp} {id : String}
    (heffect : Controller.Redis.Effect fingerprint clk k op r d) (hbefore : k.events.lookup id = none)
    (hafter : d.events.lookup id ≠ none) :
    ∃ event fp, Controller.Redis.observe fingerprint op r = some (.accepted event fp) ∧
      event.eventId = id := by
  cases heffect with
  | @accepted revision identityRevision event fp =>
    refine ⟨event, fp, rfl, ?_⟩
    by_contra hne
    exact hafter ((AList.lookup_insert_ne (Ne.symm hne)).trans hbefore)
  | @completed w =>
    by_cases hid : id = w.eventId
    · exact absurd (hid ▸ AList.lookup_erase _ _) hafter
    · exact absurd ((AList.lookup_erase_ne hid).trans hbefore) hafter
  | _ => exact absurd hbefore hafter

theorem observed_of_added (hstep : Controller.Redis.System.Step D chats fingerprint s l t) {chat id : String}
    (hbefore : (s.store.core chat).events.lookup id = none)
    (hafter : (t.store.core chat).events.lookup id ≠ none) :
    ∃ other event fp, Controller.Redis.Label.observation fingerprint l = some (other, .accepted event fp) ∧
      event.eventId = id := by
  obtain ⟨-, ⟨-, hcore⟩ | ⟨c, r, rfl, -, -, -, heffect, hother⟩⟩ := hstep.store.cases_on_core
  · rw [hcore] at hafter
    exact absurd hbefore hafter
  by_cases hchat : chat = c.chat
  · subst hchat
    obtain ⟨event, fp, hobserve, hid⟩ := accepted_of_added heffect hbefore hafter
    exact ⟨c.chat, event, fp, by rw [Controller.Redis.Label.observation_some, hobserve]; rfl, hid⟩
  · rw [hother chat hchat] at hafter
    exact absurd hbefore hafter

end Controller

/-! ## The link -/

section Link

variable {Fp : Type} {set : Setting Fp} {s t u v : Link Fp} {e e' : Event Fp} {es es' : List (Event Fp)}
  {clock : Int} {time : Nat}

/-- An attempt is for an event of the history, and its calls are for the event that it tells of. -/
structure Link.Traces (s : Link Fp) (a : Attempt) : Prop where
  claims : ∃ e ∈ s.bridge.history, Claims e a.claimed
  calls : ∀ i ∈ a.calls, ∃ event, Tells a.claimed event ∧ CallFor s.controller i event

/-- Where the values of the rows, the attempts and the calls come from. -/
structure Link.Linked (s : Link Fp) : Prop where
  consistent : s.bridge.Consistent
  stored : Stored s.bridge
  attempts : ∀ a ∈ s.attempts, s.Traces a

theorem linked_initial : (Link.initial clock time : Link Fp).Linked where
  consistent := Bridge.Store.consistent_initial clock
  stored := fun _ he => absurd he List.not_mem_nil
  attempts := fun _ ha => absurd ha List.not_mem_nil

variable [DecidableEq Fp]

/-- What an attempt traces is kept by every step. -/
theorem traces_step {a : Attempt} (h : s.Traces a) (hstep : Link.Step set s e t) : t.Traces a := by
  constructor
  · obtain ⟨e, he, hclaims⟩ := h.claims
    refine ⟨e, ?_, hclaims⟩
    rcases hstep.bridge with hsame | ⟨c, hmove⟩
    · rwa [hsame]
    · exact history_step hmove he
  · intro i hi
    obtain ⟨event, htells, hcall⟩ := h.calls i hi
    refine ⟨event, htells, ?_⟩
    rcases hstep.controller_step with ⟨-, hsame⟩ | ⟨l, -, hmove⟩
    · rwa [hsame]
    · exact callFor_step hmove hcall

theorem linked_step (h : s.Linked) (hstep : Link.Step set s e t) : t.Linked := by
  have hbridge : t.bridge.Consistent ∧ Stored t.bridge := by
    rcases hstep.bridge with hsame | ⟨c, hmove⟩
    · rw [hsame]
      exact ⟨h.consistent, h.stored⟩
    · exact ⟨(Bridge.Store.consistent_step h.consistent hmove).1, stored_step h.stored hmove⟩
  refine ⟨hbridge.1, hbridge.2, fun a ha => ?_⟩
  have hkept : ∀ a ∈ s.attempts, t.Traces a := fun a ha => traces_step (h.attempts a ha) hstep
  cases hstep with
  | store | controller => exact hkept a ha
  | claim _ _ _ hmove hanswer =>
    rcases List.mem_append.mp ha with ha | ha
    · exact hkept a ha
    · obtain rfl := List.mem_singleton.mp ha
      obtain ⟨row, hrow, hclaims⟩ := claims_of_answer hanswer
      exact ⟨⟨_, history_step hmove (h.stored _ (List.mem_map_of_mem hrow)), hclaims⟩, nofun⟩
  | @request j i attempt body event cond envelope hattempt hsends hbody hadmitted hidle =>
    rcases List.mem_or_eq_of_mem_set ha with ha | rfl
    · exact hkept a ha
    · have hold := hkept attempt (List.mem_of_getElem? hattempt)
      refine ⟨hold.claims, fun j hj => ?_⟩
      rcases List.mem_cons.mp hj with rfl | hj
      · exact ⟨event, event_of_request hbody hadmitted, 0, .snapshot,
          Controller.Redis.System.setCall_self ..⟩
      · exact hold.calls j hj
  | @finish j attempt c b exchange env hattempt =>
    rcases List.mem_or_eq_of_mem_set ha with ha | rfl
    · exact hkept a ha
    · have hold := hkept attempt (List.mem_of_getElem? hattempt)
      exact ⟨hold.claims, hold.calls⟩

/-- Behind an answer `accepted` or `duplicate` there is a state in which the controller held the
event. -/
theorem held_of_answer (h : Exec (Link.Step set) (Link.initial clock time) es s) {i : Nat}
    {event : NotificationV2} {answer : Acceptance} (hkind : answer = .accepted ∨ answer = .duplicate)
    (hstands : s.controller.Stands i event (some answer)) :
    ∃ es₁ es₂ u, es = es₁ ++ es₂ ∧ Exec (Link.Step set) (Link.initial clock time) es₁ u ∧
      Exec (Link.Step set) u es₂ s ∧ Held set.fingerprint u.controller event := by
  refine h.cause (P := fun s => s.controller.Stands i event (some answer))
    Controller.Redis.System.not_stands_empty (fun _ _ _ _ run last hb => ?_) hstands
  rcases last.controller_step with ⟨-, hsame⟩ | ⟨l, -, hmove⟩
  · exact Or.inl (hsame ▸ hb)
  have hrun := exec_controller run
  obtain ⟨n, pc, hcall, hanswer⟩ := hb
  rcases hkind with rfl | rfl
  · rcases Controller.Redis.accepted_step hmove hcall hanswer with ⟨n', pc', hbefore⟩ | hactive
    · exact Or.inl ⟨n', pc', hbefore⟩
    · exact Or.inr (Or.inr (Or.inl hactive))
  · obtain ⟨n', pc', hbefore, hdup | ⟨-, hheld⟩⟩ := Controller.Redis.duplicate_step
      (Controller.Redis.run_coherent (Controller.Redis.exec_store hrun)) (Controller.Redis.run_marks hrun)
      hmove hcall hanswer
    · exact Or.inl ⟨n', pc', hbefore, hdup⟩
    · exact Or.inr (Or.inl hheld)

/-- The event is that of the row. -/
structure Names (n : OutboxRow) (event : NotificationV2) : Prop where
  eventId : event.eventId = n.eventId
  chatJid : event.chatJid = n.chatJid
  canonicalChatJid : n.canonicalChatJid = some event.canonicalChatJid
  chatSequence : n.chatSequence = some event.chatSequence

/-- A response of success is the answer of a call for the event of the row. -/
theorem answer_of_accepted (h : s.Linked) (hstep : Link.Step set s e t) {id : String} {n : OutboxRow}
    (hn : t.bridge.db.outbox.lookup id = some n) (haccepted : n.state = .accepted)
    (hbefore : ∀ n₀, s.bridge.db.outbox.lookup id = some n₀ → n₀.state ≠ .accepted) :
    ∃ i event answer, (answer = .accepted ∨ answer = .duplicate) ∧
      s.controller.Stands i event (some answer) ∧ Names n event := by
  cases hstep with
  | store hmove hop =>
    rw [hmove.next] at hn
    obtain ⟨claimed, outcome, -, hcall, -⟩ := finished_of_accepted hn haccepted hbefore
    exact absurd hcall (hop claimed outcome)
  | claim _ _ hop hmove =>
    rw [hmove.next] at hn
    obtain ⟨claimed', outcome, -, hcall, -⟩ := finished_of_accepted hn haccepted hbefore
    rw [hop] at hcall
    cases hcall
  | controller | request => exact absurd haccepted (hbefore n hn)
  | @finish j a c b exchange env hattempt hopen hreading hhears hop hmove =>
    rw [hmove.next] at hn
    obtain ⟨claimed, outcome, n₀, hcall, hstate, hn₀, hsame, hid⟩ :=
      finished_of_accepted hn haccepted hbefore
    rw [hop] at hcall
    obtain ⟨rfl, rfl⟩ := Bridge.Store.Op.finishNotification.inj hcall
    obtain ⟨body, r, -, hexchange, hstatus⟩ := attempt_accepted hstate
    have hheard := hhears body
    rw [hexchange] at hheard
    rcases hheard with herror | ⟨i, hi, event, k, answer, hcalls, hreply⟩
    · omega
    obtain ⟨⟨e₀, he₀, hclaims⟩, hfor⟩ := h.attempts a (List.mem_of_getElem? hattempt)
    obtain ⟨event', htells, k', pc, hcalls'⟩ := hfor i hi
    rw [hcalls] at hcalls'
    obtain rfl : event = event' := congrArg AcceptCall.event (Option.some.inj hcalls')
    refine ⟨i, event, answer, answerOf_success (by omega), ⟨k, _, hcalls, rfl⟩, ?_⟩
    -- ids are never given twice, so the claimed event is that of the row
    have hrow : n₀.toOutboxEvent ∈ s.bridge.history :=
      h.stored _ (List.mem_map_of_mem (Table.mem_of_lookup hn₀))
    have hevent : n₀.toOutboxEvent = e₀ :=
      List.inj_on_of_nodup_map h.consistent.distinct hrow he₀ (hid.trans hclaims.eventId)
    rw [← hevent, hsame] at hclaims
    obtain ⟨hcanonical, hsequence⟩ := hclaims.metadata htells.version
    exact ⟨htells.eventId.trans hclaims.eventId, htells.chatJid.trans hclaims.chatJid,
      hcanonical.trans (congrArg some htells.canonicalChatJid.symm),
      hsequence.trans (congrArg some htells.chatSequence.symm)⟩

/-- The step adds an event to the active set of a chat. -/
def Adds (id : String) (s t : Link Fp) : Prop :=
  ∃ chat, (s.controller.store.core chat).events.lookup id = none ∧
    (t.controller.store.core chat).events.lookup id ≠ none

theorem observed_of_adds {id : String} (hstep : Link.Step set s e t) (h : Adds id s t) :
    ∃ l other event fp, e.label = some l ∧
      Controller.Redis.Label.observation set.fingerprint l = some (other, .accepted event fp) ∧
      event.eventId = id := by
  obtain ⟨chat, hbefore, hafter⟩ := h
  rcases hstep.controller_step with ⟨-, hsame⟩ | ⟨l, hlabel, hmove⟩
  · rw [hsame] at hafter
    exact absurd hbefore hafter
  · obtain ⟨other, event, fp, hobserved, hid⟩ := observed_of_added hmove hbefore hafter
    exact ⟨l, other, event, fp, hlabel, hobserved, hid⟩

/-- The controller adds an event at most once. -/
theorem added_once (h : Exec (Link.Step set) (Link.initial clock time) es s) (hfirst : Link.Step set s e t)
    (hrest : Exec (Link.Step set) t es' u) (hsecond : Link.Step set u e' v) {id : String}
    (hadds : Adds id s t) : ¬ Adds id u v := by
  intro hagain
  obtain ⟨l, other, event, fp, hl, hobserved, hid⟩ := observed_of_adds hfirst hadds
  obtain ⟨l', other', event', fp', hl', hobserved', hid'⟩ := observed_of_adds hsecond hagain
  have hrun := exec_controller (((h.snoc hfirst).append hrest).snoc hsecond)
  have hlawful := Controller.Redis.system_lawful (Controller.Redis.markers_complete hrun)
  have hsplit : Controller.Redis.observed set.fingerprint ((es ++ [e] ++ es' ++ [e']).filterMap Event.label) =
      Controller.Redis.observed set.fingerprint ((es ++ [e] ++ es').filterMap Event.label) ++
        [(other', .accepted event' fp')] := by
    rw [List.filterMap_append, Controller.Redis.observed, List.filterMap_append,
      List.filterMap_cons_some hl', List.filterMap_nil, List.filterMap_cons_some hobserved']
    rfl
  have hmem : (other, Observation.accepted event fp) ∈
      Controller.Redis.observed set.fingerprint ((es ++ [e] ++ es').filterMap Event.label) :=
    List.mem_filterMap.mpr ⟨l, List.mem_filterMap.mpr ⟨e, by simp, hl⟩, hobserved⟩
  have hfresh := (hlawful.fresh _ _ _ _ (Controller.Redis.ledger_split hsplit rfl) other _
    (List.mem_filterMap.mpr ⟨_, hmem, rfl⟩)).1
  exact hfresh (hid.trans hid'.symm)

/-- In every run of the link, a row becomes accepted only after the controller held the event with
the id, the chat and the sequence of the row; and the controller adds no event to its active set
twice. -/
theorem accepted_truthful (h : Exec (Link.Step set) (Link.initial clock time) es s) :
    (∀ e t id n, Link.Step set s e t → t.bridge.db.outbox.lookup id = some n → n.state = .accepted →
      (∀ n₀, s.bridge.db.outbox.lookup id = some n₀ → n₀.state ≠ .accepted) →
      ∃ es₁ es₂ u event, es = es₁ ++ es₂ ∧ Exec (Link.Step set) (Link.initial clock time) es₁ u ∧
        Exec (Link.Step set) u es₂ s ∧ Names n event ∧ Held set.fingerprint u.controller event) ∧
    ∀ id e t es' u e' v, Link.Step set s e t → Exec (Link.Step set) t es' u → Link.Step set u e' v →
      Adds id s t → ¬ Adds id u v := by
  have hlinked : s.Linked := h.invariant linked_initial fun _ _ _ => linked_step
  refine ⟨fun e t id n hstep hn haccepted hbefore => ?_,
    fun id e t es' u e' v hfirst hrest hsecond => added_once h hfirst hrest hsecond⟩
  obtain ⟨i, event, answer, hkind, hstands, hnames⟩ :=
    answer_of_accepted hlinked hstep hn haccepted hbefore
  obtain ⟨es₁, es₂, u, heq, hfirst, hrest, hheld⟩ := held_of_answer h hkind hstands
  exact ⟨es₁, es₂, u, event, heq, hfirst, hrest, hnames, hheld⟩

end Link

/-! ## A sample delivery -/

/-- What the claim of the sample run hands out. -/
def sampleNotification : Notification where
  eventId := "01010101010101010101010101010101"
  schemaVersion := 2
  eventType := Bridge.Store.messageReceived
  chatJid := "15@lid"
  canonicalChatJid := "15@lid"
  messageId := "M1"
  eventTimestamp := 1000
  receivedAt := 2000
  expiresAt := 2000 + Bridge.hour
  chatSequence := 1
  senderJid := "15@lid"
  senderAltJid := ""
  chatKind := "operator_private"
  isFromMe := false
  attempts := 1
  leaseToken := "02020202020202020202020202020202"

/-- The event of the notification. -/
def sampleEvent : NotificationV2 where
  eventId := "01010101010101010101010101010101"
  messageId := "M1"
  eventTimestamp := "1970-01-01T00:00:00.000001Z"
  receivedAt := "1970-01-01T00:00:00.000002Z"
  chatSequence := 1
  senderJid := "15@lid"
  senderAltJid := none
  isFromMe := false
  chatKind := .operatorPrivate
  chatJid := "15@lid"
  canonicalChatJid := "15@lid"
  chatSequence_pos := Nat.one_pos

/-- One operator, and the acknowledgement of the event; an event is its own digest. -/
def sampleSetting : Setting NotificationV2 where
  policy := ⟨[], ["15@lid"]⟩
  http := ⟨"/webhook", 8, 65536⟩
  fingerprint := id
  decoders := ⟨fun _ => some ⟨"accepted", "01010101010101010101010101010101"⟩, fun _ => none⟩

def sampleEnvelope : Envelope := ⟨"/webhook", "1700000000", "v2=00", "300"⟩

/-- The server is ready, and the signature is the right one. -/
def sampleConditions : Conditions := ⟨true, true, false, 0, none, true⟩

/-- The message of the chat arrives and is claimed. -/
def sampleClaim : Bridge.Store.Call :=
  Bridge.Store.sampleCall (.claimNotification ["15@lid"] 5 (30 * 1000000000)) 30000 2

def sampleBridge : Bridge.Store.System :=
  ((Bridge.Store.sampleChat.after (Bridge.Store.sampleLive 20 1)).after sampleClaim)

theorem sampleStatus_lt : 202 < 1000 := by decide

def sampleExchange : Body → Exchange := fun _ => .ok ⟨⟨202, sampleStatus_lt⟩, "", [], false⟩

/-- The outcome of the attempt is recorded. -/
def sampleFinish : Bridge.Store.Call :=
  Bridge.Store.sampleCall (.finishNotification sampleNotification
    (attempt Bridge.Notify.sampleConfig sampleSetting.decoders sampleExchange Bridge.Notify.sampleAttempt
      sampleNotification)) 40000 0

theorem payloadBytes_sample : ∃ body, payloadBytes sampleNotification = some body ∧
    admitted sampleSetting.http sampleSetting.policy sampleConditions
      (requestOf sampleEnvelope sampleNotification body) = .ok sampleEvent := by
  exact ⟨_, rfl, by decide +kernel⟩

/-- A run of the controller beside a bridge that rests. -/
theorem exec_of_controller {Fp : Type} [DecidableEq Fp] {set : Setting Fp} {s₀ s : Link Fp}
    {es : List (Event Fp)} {ls : List (Controller.Redis.Label Fp)} {c c' : Controller.Redis.System Fp}
    (hrun : Exec (Controller.Redis.System.Step .durable set.policy.configuredChats set.fingerprint) c ls c')
    (h : Exec (Link.Step set) s₀ es s) (hc : s.controller = c) :
    Exec (Link.Step set) s₀ (es ++ ls.map Event.controller) { s with controller := c' } := by
  subst hc
  induction hrun with
  | nil => simpa using h
  | snoc run last ih =>
    rw [List.map_append, ← List.append_assoc]
    exact ih.snoc (.controller last)

/-- The controller with the chat. -/
def sampleController : Controller.Redis.System NotificationV2 :=
  let init : Controller.Redis.Op NotificationV2 := .init "15@lid"
  { Controller.Redis.System.empty 0 with
    store := (Controller.Redis.Store.empty 0).write "15@lid"
      (init.run (.frozen 1) ((Controller.Redis.Store.empty 0).keys "15@lid")).2 1 }

/-- The controller takes the event in and accepts it. -/
theorem sampleController_accepts : ∃ ls c,
    Exec (Controller.Redis.System.Step .durable ["15@lid"] id)
      (sampleController.setCall 0 ⟨sampleEvent, 0, .snapshot⟩) ls c ∧
      c.calls 0 = some ⟨sampleEvent, 0, .done .accepted⟩ := by
  have hidle : Exec (Controller.Redis.System.Step .durable ["15@lid"] id)
      (sampleController.setCall 0 ⟨sampleEvent, 0, .snapshot⟩) []
      (sampleController.setCall 0 ⟨sampleEvent, 0, .snapshot⟩) := .nil
  have hcalled := Controller.Redis.exec_called sampleEvent hidle 0 2 (Controller.Redis.System.setCall_self ..)
    (by decide) (fun u since hu m hm => absurd (hu ▸ List.mem_of_mem_take hm) List.not_mem_nil) rfl
  exact ⟨_, _, hcalled.snoc (.flush rfl), Controller.Redis.System.setCall_self ..⟩

/-- The notification is claimed, taken in and accepted. -/
theorem sampleRun : ∃ es s e t n, Exec (Link.Step sampleSetting) (Link.initial 0 0) es s ∧
    Link.Step sampleSetting s e t ∧
    t.bridge.db.outbox.lookup sampleNotification.eventId = some n ∧ n.state = .accepted ∧
    ∀ n₀, s.bridge.db.outbox.lookup sampleNotification.eventId = some n₀ → n₀.state ≠ .accepted := by
  obtain ⟨body, hbody, hadmitted⟩ := payloadBytes_sample
  have hchats : sampleSetting.policy.configuredChats = ["15@lid"] := by decide
  have hchat : Link.Step sampleSetting (Link.initial 0 0) (.store _) ⟨Bridge.Store.sampleChat, .empty 0, []⟩ :=
    .store (Bridge.Store.sampleStep _ _ _ _ (by decide) (by decide)) fun _ _ h => by cases h
  have hsaved : Link.Step sampleSetting ⟨Bridge.Store.sampleChat, .empty 0, []⟩ (.store _)
      ⟨Bridge.Store.sampleChat.after (Bridge.Store.sampleLive 20 1), .empty 0, []⟩ :=
    .store (Bridge.Store.sampleStep _ _ _ _ (by decide) (by decide)) fun _ _ h => by cases h
  have hclaimed : Link.Step sampleSetting
      ⟨Bridge.Store.sampleChat.after (Bridge.Store.sampleLive 20 1), .empty 0, []⟩ (.claim sampleClaim)
      ⟨sampleBridge, .empty 0, [⟨sampleNotification, Bridge.Notify.sampleConfig,
        Bridge.Notify.sampleAttempt.before, [], false⟩]⟩ :=
    .claim _ _ rfl (Bridge.Store.sampleStep _ _ _ _ (by decide) (by decide)) (by decide +kernel)
  have hinit : Exec (Controller.Redis.System.Step .durable ["15@lid"] id) (.empty 0) _ sampleController :=
    Controller.Redis.exec_client .nil "15@lid" 1 (.init "15@lid") ⟨List.mem_singleton.mpr rfl, trivial⟩
      (by decide) ⟨id, trivial⟩
  obtain ⟨ls, c, hrun, hcall⟩ := sampleController_accepts
  rw [← hchats] at hinit hrun
  have hready := exec_of_controller hinit (((Exec.single hchat).snoc hsaved).snoc hclaimed) rfl
  have hrequest := hready.snoc (.request (j := 0) (i := 0) sampleConditions sampleEnvelope rfl
    ⟨by decide, by decide⟩ hbody hadmitted rfl)
  have hanswered := exec_of_controller hrun hrequest rfl
  have hfinish : sampleBridge.Step sampleFinish (sampleBridge.after sampleFinish) :=
    Bridge.Store.sampleStep _ _ _ _ (by decide) (by decide)
  have hbefore : (sampleBridge.db.outbox.lookup sampleNotification.eventId).map OutboxRow.state =
      some .leased := by decide +kernel
  have hafter : ((sampleBridge.after sampleFinish).db.outbox.lookup sampleNotification.eventId).map
      OutboxRow.state = some .accepted := by decide +kernel
  obtain ⟨n, hn, hstate⟩ := Option.map_eq_some_iff.mp hafter
  refine ⟨_, _, .finish 0 sampleFinish, _, n, hanswered, .finish sampleExchange
    Bridge.Notify.sampleAttempt rfl rfl rfl (fun body => Or.inr ?_) rfl hfinish, hn, hstate, ?_⟩
  · exact ⟨0, List.mem_cons_self, sampleEvent, 0, .accepted, hcall, rfl⟩
  · intro n₀ hn₀
    have hleased : sampleBridge.db.outbox.lookup sampleNotification.eventId = some n₀ := hn₀
    rw [hleased] at hbefore
    rw [Option.some.inj hbefore]
    nofun

/-- Before the row of the sample run is accepted, the controller held its event. -/
theorem accepted_truthful_of_sampleRun : ∃ es u n event,
    Exec (Link.Step sampleSetting) (Link.initial 0 0) es u ∧ n.state = .accepted ∧ Names n event ∧
      Held sampleSetting.fingerprint u.controller event := by
  obtain ⟨es, s, e, t, n, hrun, hstep, hn, hstate, hbefore⟩ := sampleRun
  obtain ⟨es₁, -, u, event, -, hfirst, -, hnames, hheld⟩ :=
    (accepted_truthful hrun).1 e t _ n hstep hn hstate hbefore
  exact ⟨es₁, u, n, event, hfirst, hstate, hnames, hheld⟩

end WhatsAppMcp.Delivery
