import WhatsAppMcp.Controller.Pi.ToolJournal

/-!
# What the programs of a turn may ask

Each program of a turn obeys `Allowed`, whatever the others do and whatever it is
answered:

* a script is called for the work that `context.work()` returned;
* an attempt is begun only by `tool_call`, for the call and the event of it;
* an attempt is confirmed only by `tool_result`, for the attempt that the map has
  under the id of the call, with the message id that the result carries;
* an attempt goes into the map only after its begin was answered `ok`;
* the event is completed only with a marker that `findEvent` has found.

`toolCall_obeys` adds what a call that is let through has behind it.
-/

namespace WhatsAppMcp.Controller.Pi.ToolJournal

open Calls Redis

variable {Fp : Type} (host : Host Fp)

/-! ## The rule -/

/-- What a program has been answered. -/
abbrev Past (Fp : Type) := List (Said (@Query.Answer Fp))

/-- The query came back with this value. -/
def Answered (past : Past Fp) (q : Query Fp) (value : q.Value) : Prop := said q (.ok value) ∈ past

/-- The attempt is one of this call for this work. -/
structure AttemptFor (work : ClaimedWork) (tool : Tool) (event : ToolCallEvent) (a : MutationState) :
    Prop where
  toolCallId : a.toolCallId = event.toolCallId
  destination : mutationDestination tool event.input = some a.destination
  tool : a.tool = tool.name
  eventId : a.eventId = work.event.eventId
  ownership : a.ownership = work.ownership
  status : a.status = .attempting

/-- The script call that begins an attempt. -/
def beginOp (work : ClaimedWork) (session : SessionBinding) (a : MutationState) : Op Fp :=
  .nativeJournalBegin (argsFor host.fingerprint work) a.attemptId
    ⟨host.fingerprint work.event, session, a⟩ session

/-- The begin of an attempt was answered `ok`. -/
def Opened (past : Past Fp) (tool : Tool) (event : ToolCallEvent) (a : MutationState) : Prop :=
  ∃ work session, AttemptFor work tool event a ∧ Answered past .work work ∧
    Answered past (.script work.event.canonicalChatJid (beginOp host work session a)) .ok

/-- The result confirms the attempt that the map has under the id of its call. -/
structure Confirms (past : Past Fp) (event : ToolResultEvent) (attemptId messageId : String) :
    Prop where
  evidence : ∃ tool l a, toolOf event.toolName = some tool ∧ Answered past .live l ∧
    l.calls.lookup event.toolCallId = some a ∧ a.attemptId = attemptId ∧ a.tool = tool.name ∧
    mutationDestination tool event.input = some a.destination ∧
    confirmedMessage host.parse event tool = some messageId

/-- The script calls of a program for the work `work`. -/
def Issues (part : Part) (past : Past Fp) (work : ClaimedWork) : Op Fp → Prop
  | .read | .journalList => True
  | .renew w _ | .checkWork w | .beginTurn w | .pause w _ => w = argsFor host.fingerprint work
  | .journalTransition w _ .uncertain => w = argsFor host.fingerprint work
  | .journalTransition w attemptId (.confirmed messageId _) => w = argsFor host.fingerprint work ∧
      ∃ event, part = .toolResult event ∧ Confirms host past event attemptId messageId
  | .nativeJournalBegin w attemptId record session => ∃ event tool, part = .toolCall event ∧
      toolOf event.toolName = some tool ∧ AttemptFor work tool event record.state ∧
      Op.nativeJournalBegin w attemptId record session = beginOp host work session record.state
  | .complete w session sends => w = argsFor host.fingerprint work ∧ ∃ m,
      Answered past (.findEvent work.event.canonicalChatJid work.event.eventId) (some m) ∧
      m.session = session ∧ m.confirmedSends = sends ∧
      m.eventFingerprint = host.fingerprint work.event
  | _ => False

/-- What a program of the turn may ask after what it was answered. -/
def Allowed (part : Part) (past : Past Fp) : Query Fp → Prop
  | .script chat op => ∃ work, Answered past .work work ∧ chat = work.event.canonicalChatJid ∧
      Issues host part past work op
  | .renewed epoch untilMs => ∃ work, Answered past .work work ∧
      Answered past (.script work.event.canonicalChatJid
        (.renew (argsFor host.fingerprint work) host.leaseMs)) (.fence epoch untilMs)
  | .update (.setCall toolCallId a) => ∃ event tool, part = .toolCall event ∧
      toolOf event.toolName = some tool ∧ toolCallId = event.toolCallId ∧ Opened host past tool event a
  | _ => True

/-- What a program of the turn has behind it when it ends. -/
def Ends (part : Part) (past : Past Fp) (outcome : Outcome) : Prop :=
  ∀ event, part = .toolCall event → outcome.letsThrough = true →
    ∀ tool, toolOf event.toolName = some tool → ∃ a, Opened host past tool event a

/-! ## The parts that ask nothing special -/

section Rules

variable {host} {part : Part} {past : Past Fp}

theorem Answered.mono {past' : Past Fp} {q : Query Fp} {value : q.Value} (h : Answered past q value)
    (hsub : past ⊆ past') : Answered past' q value := hsub h

theorem Opened.mono {past' : Past Fp} {tool : Tool} {event : ToolCallEvent} {a : MutationState}
    (h : Opened host past tool event a) (hsub : past ⊆ past') : Opened host past' tool event a := by
  obtain ⟨work, session, hattempt, hwork, hbegin⟩ := h
  exact ⟨work, session, hattempt, hwork.mono hsub, hbegin.mono hsub⟩

/-- The program goes on after anything it may have been answered. -/
abbrev Obeying {α : Type} (host : Host Fp) (part : Part) (past : Past Fp) (p : Async Fp α)
    (post : Past Fp → α → Prop) : Prop :=
  p.Obeys (Allowed host part) past post

theorem obeys_ask {q : Query Fp} (hq : Allowed host part past q) :
    Obeying host part past (ask q) fun past value => Answered past q value := by
  refine (Prog.obeys_query (P := fun past answer => said q answer ∈ past) hq
    fun a => by simp).bind fun past' answer _ hanswer => ?_
  cases answer with
  | ok value => exact Prog.obeys_pure hanswer
  | error code => exact Prog.obeys_throw

theorem obeys_require {condition : Bool} {code : ErrorClass} :
    Obeying host part past (require condition code) fun _ _ => condition = true := by
  unfold require
  split
  · next h => exact Prog.obeys_pure h
  · exact Prog.obeys_throw

/-- A query that is allowed after anything. -/
theorem obeys_free {q : Query Fp} (hq : ∀ past, Allowed host part past q) :
    Obeying host part past (ask q) fun past value => Answered past q value := obeys_ask (hq past)

theorem obeys_loseLease : Obeying host part past loseLease fun _ _ => True :=
  Prog.Obeys.bind (obeys_free fun _ => trivial) fun _ _ _ _ => Prog.obeys_throw

/-- A script for the work that was read. -/
theorem obeys_script {work : ClaimedWork} {op : Op Fp} (hwork : Answered past .work work)
    (hop : Issues host part past work op) :
    Obeying host part past (ask (.script work.event.canonicalChatJid op))
      fun past reply => Answered past (.script work.event.canonicalChatJid op) reply :=
  obeys_ask ⟨work, hwork, rfl, hop⟩

theorem obeys_awaitTail : Obeying host part past awaitTail fun _ _ => True := by
  unfold awaitTail
  refine Prog.Obeys.bind (obeys_free fun _ => trivial) fun past l _ _ => ?_
  exact Prog.Obeys.imp (obeys_free fun _ => trivial) fun _ _ _ => trivial

/-- What an action obeys, it obeys in its turn. -/
theorem obeys_enqueue {α : Type} {action : Async Fp α} {post : Past Fp → α → Prop}
    (h : ∀ past, Obeying host part past action post)
    (hmono : ∀ past past' a, past ⊆ past' → post past a → post past' a) :
    Obeying host part past (enqueue action) post := by
  unfold enqueue
  refine Prog.Obeys.bind (obeys_free fun _ => trivial) fun past ticket _ _ => ?_
  refine Prog.Obeys.bind (obeys_free fun _ => trivial) fun past _ _ _ => ?_
  refine Prog.Obeys.bind (Prog.Obeys.tryCatch (h past) fun past code => ?_) fun past a _ ha => ?_
  · exact Prog.Obeys.bind (obeys_free fun _ => trivial) fun _ _ _ _ => Prog.obeys_throw
  · exact Prog.Obeys.bind (obeys_free fun _ => trivial) fun past' _ hsub _ =>
      Prog.obeys_pure (hmono past past' a hsub ha)

/-- The handlers catch what their actions throw. -/
theorem obeys_resolved {action : Async Fp Outcome} {failure : Outcome}
    {post : Past Fp → Outcome → Prop} (h : ∀ past, Obeying host part past action post)
    (hfailure : ∀ past, post past failure) :
    Obeying host part past (resolved action failure) post := by
  unfold resolved poison
  refine Prog.Obeys.bind (M := fun _ _ => True) ?_ fun past found _ _ => ?_
  · refine Prog.Obeys.tryCatch ?_ fun past code => Prog.obeys_pure trivial
    exact Prog.Obeys.bind (obeys_free fun _ => trivial) fun _ _ _ _ => Prog.obeys_pure trivial
  · split
    · refine Prog.Obeys.tryCatch (h past) fun past code => ?_
      refine Prog.Obeys.bind (obeys_free fun _ => trivial) fun past _ _ _ => ?_
      refine Prog.Obeys.bind (obeys_free fun _ => trivial) fun past _ _ _ => ?_
      exact Prog.obeys_pure (hfailure past)
    · refine Prog.Obeys.bind (obeys_free fun _ => trivial) fun past _ _ _ => ?_
      exact Prog.obeys_pure (hfailure past)

theorem obeys_current : Obeying host part past (current host) fun _ _ => True := by
  unfold current
  refine Prog.Obeys.bind (obeys_free fun _ => trivial) fun past gone _ _ => ?_
  refine Prog.Obeys.bind obeys_require fun past _ _ _ => ?_
  refine Prog.Obeys.bind (obeys_free fun _ => trivial) fun past work _ hwork => ?_
  refine Prog.Obeys.bind (obeys_script hwork rfl) fun past renewed hsub hrenewed => ?_
  have hwork := hwork.mono hsub
  refine Prog.Obeys.bind (obeys_free fun _ => trivial) fun past gone hsub _ => ?_
  split
  · refine Prog.Obeys.bind (obeys_ask ⟨work, hwork.mono hsub, hrenewed.mono hsub⟩) fun past _ _ _ => ?_
    refine Prog.Obeys.bind (obeys_free fun _ => trivial) fun past work _ hwork => ?_
    refine Prog.Obeys.bind (obeys_script hwork rfl) fun past checked _ _ => ?_
    refine Prog.Obeys.bind (obeys_free fun _ => trivial) fun past gone _ _ => ?_
    split
    · exact Prog.obeys_pure trivial
    · exact obeys_loseLease
  · exact obeys_loseLease

theorem obeys_gate : Obeying host part past (gate host) fun _ _ => True := by
  unfold gate
  refine Prog.Obeys.bind (obeys_free fun _ => trivial) fun past before _ _ => ?_
  refine Prog.Obeys.bind obeys_require fun past _ _ _ => ?_
  refine Prog.Obeys.bind obeys_current fun past _ _ _ => ?_
  refine Prog.Obeys.bind (obeys_free fun _ => trivial) fun past after _ _ => ?_
  exact Prog.Obeys.imp obeys_require fun _ _ _ => trivial

theorem obeys_record {state : MutationState} :
    Obeying host part past (record host state) fun _ _ => True := by
  unfold record
  refine Prog.Obeys.bind obeys_gate fun past _ _ _ => ?_
  refine Prog.Obeys.bind (obeys_free fun _ => trivial) fun past work _ _ => ?_
  refine Prog.Obeys.bind (obeys_free fun _ => trivial) fun past _ _ _ => ?_
  exact obeys_gate

theorem obeys_journalList {work : ClaimedWork} (hwork : Answered past .work work) :
    Obeying host part past (journalList work.event.canonicalChatJid) fun _ _ => True := by
  unfold journalList
  refine Prog.Obeys.bind (obeys_script hwork trivial) fun past reply _ _ => ?_
  split
  · split
    · exact Prog.obeys_pure trivial
    · exact Prog.obeys_throw
  · exact Prog.obeys_throw

/-- Every part but `tool_call` may end with anything. -/
theorem ends_of_ne {outcome : Outcome} (h : ∀ event, part ≠ .toolCall event) :
    Ends host part past outcome :=
  fun event heq => absurd heq (h event)

theorem obeys_prompted : Obeying host part past prompted fun _ _ => True := by
  unfold prompted
  refine Prog.Obeys.tryCatch ?_ fun past code => Prog.obeys_pure trivial
  exact Prog.Obeys.bind (obeys_free fun _ => trivial) fun _ _ _ _ => Prog.obeys_pure trivial

theorem obeys_within {reason : ErrorClass} {p : Async Fp Unit}
    (h : Obeying host part past p fun _ _ => True) :
    Obeying host part past (within reason p) fun _ _ => True :=
  Prog.Obeys.tryCatch h fun _ _ => Prog.obeys_throw

variable [DecidableEq Fp]

/-- An owned write is answered `ok` where it succeeds. -/
theorem obeys_ownedWrite {work : ClaimedWork} {op : Op Fp} (hwork : Answered past .work work)
    (hop : Issues host part past work op) :
    Obeying host part past (ownedWrite work op) fun past written => written = true →
      Answered past (.script work.event.canonicalChatJid op) .ok := by
  unfold ownedWrite
  refine Prog.Obeys.bind (obeys_script hwork hop) fun past reply _ hreply => Prog.obeys_pure fun hok => ?_
  obtain rfl := of_decide_eq_true hok
  exact hreply

theorem obeys_uncertain {attempt : MutationState} :
    Obeying host part past (uncertain host attempt) fun _ _ => True := by
  unfold uncertain journalUncertain
  refine Prog.Obeys.bind obeys_gate fun past _ _ _ => ?_
  refine Prog.Obeys.bind (obeys_free fun _ => trivial) fun past work _ hwork => ?_
  refine Prog.Obeys.bind (M := fun _ _ => True) ?_ fun past written _ _ => ?_
  · refine Prog.Obeys.bind obeys_require fun past _ hsub _ => ?_
    exact Prog.Obeys.imp (obeys_ownedWrite (hwork.mono hsub) rfl) fun _ _ _ => trivial
  · refine Prog.Obeys.bind obeys_require fun past _ _ _ => ?_
    refine Prog.Obeys.bind obeys_record fun past _ _ _ => ?_
    exact Prog.Obeys.imp (obeys_free fun _ => trivial) fun _ _ _ => trivial

/-! ## `tool_call` -/

/-- A begin that succeeds has opened the attempt. -/
theorem obeys_journalBegin {event : ToolCallEvent} {tool : Tool} {work : ClaimedWork}
    {a : MutationState} (htool : toolOf event.toolName = some tool)
    (hwork : Answered past .work work)
    (hattempt : a.eventId = work.event.eventId → AttemptFor work tool event a) :
    Obeying host (.toolCall event) past (journalBegin host work a) fun past begun =>
      begun = true → Opened host past tool event a := by
  unfold journalBegin
  split
  · exact Prog.obeys_pure nofun
  · next hsame =>
    have hfor := hattempt (by push Not at hsame; exact hsame.1)
    refine Prog.Obeys.bind (obeys_script hwork trivial) fun past reply hsub _ => ?_
    have hwork := hwork.mono hsub
    split
    · next session pause gap heq =>
      refine Prog.Obeys.imp (Prog.Obeys.onward (obeys_ownedWrite hwork
        ⟨event, tool, rfl, htool, hfor, rfl⟩)) fun past begun hpost hbegun => ?_
      exact ⟨work, session, hfor, hwork.mono hpost.1, hpost.2 hbegun⟩
    · exact Prog.obeys_pure nofun
    · exact Prog.obeys_throw

theorem obeys_openAttempt {event : ToolCallEvent} {tool : Tool} {work : ClaimedWork}
    {destination attemptId startedAt : String} (htool : toolOf event.toolName = some tool)
    (hdestination : mutationDestination tool event.input = some destination) :
    Obeying host (.toolCall event) past
      (openAttempt host event (attemptOf work tool event destination attemptId startedAt))
      fun past _ => ∃ a, Opened host past tool event a := by
  unfold openAttempt
  refine Prog.Obeys.bind obeys_current fun past _ _ _ => ?_
  refine Prog.Obeys.bind (obeys_free fun _ => trivial) fun past now _ hnow => ?_
  refine Prog.Obeys.bind (obeys_journalBegin htool hnow fun hevent =>
    ⟨rfl, hdestination, rfl, hevent, rfl, rfl⟩) fun past begun _ hbegun => ?_
  refine Prog.Obeys.bind obeys_require fun past _ hsub hgood => ?_
  have hopened := (hbegun hgood).mono hsub
  refine Prog.Obeys.bind (obeys_ask ⟨event, tool, rfl, htool, rfl, hopened⟩) fun past _ hsub _ => ?_
  have hopened := hopened.mono hsub
  refine Prog.Obeys.bind obeys_record fun past _ hsub _ => ?_
  have hopened := hopened.mono hsub
  exact Prog.Obeys.imp (Prog.Obeys.onward obeys_gate) fun past _ h => ⟨_, hopened.mono h.1⟩

/-- A call that the action allows has an attempt behind it. -/
theorem obeys_callAction {event : ToolCallEvent} {tool : Tool}
    (htool : toolOf event.toolName = some tool) :
    Obeying host (.toolCall event) past (callAction host tool event) fun past allowed =>
      allowed = true → ∃ a, Opened host past tool event a := by
  unfold callAction
  refine Prog.Obeys.bind obeys_gate fun past _ _ _ => ?_
  refine Prog.Obeys.bind (obeys_free fun _ => trivial) fun past tools _ _ => ?_
  refine Prog.Obeys.bind obeys_require fun past _ _ _ => ?_
  refine Prog.Obeys.bind (obeys_free fun _ => trivial) fun past l _ _ => ?_
  refine Prog.Obeys.bind obeys_require fun past _ _ _ => ?_
  refine Prog.Obeys.bind (obeys_free fun _ => trivial) fun past work _ _ => ?_
  split
  · exact Prog.obeys_pure nofun
  · split
    · exact Prog.obeys_throw
    · next destination hdestination =>
      refine Prog.Obeys.bind (obeys_free fun _ => trivial) fun past attemptId _ _ => ?_
      refine Prog.Obeys.bind (obeys_free fun _ => trivial) fun past startedAt _ _ => ?_
      refine Prog.Obeys.bind obeys_require fun past _ _ _ => ?_
      refine Prog.Obeys.bind (obeys_openAttempt htool hdestination) fun past _ _ hopened => ?_
      exact Prog.obeys_pure fun _ => hopened

theorem toolCall_obeys {event : ToolCallEvent} :
    Obeying host (.toolCall event) past (toolCall host event) (Ends host (.toolCall event)) := by
  unfold toolCall
  split
  · next hnone =>
    refine Prog.obeys_pure fun event' heq _ tool htool => ?_
    cases heq
    rw [hnone] at htool
    cases htool
  · next tool htool =>
    refine obeys_resolved (fun past => ?_) fun past event' heq hpass => nomatch hpass
    refine Prog.Obeys.bind (obeys_enqueue (fun past => obeys_callAction htool)
      fun past past' allowed hsub hopened hallowed => ?_) fun past allowed _ hopened => ?_
    · obtain ⟨a, ha⟩ := hopened hallowed
      exact ⟨a, ha.mono hsub⟩
    · refine Prog.obeys_pure fun event' heq hpass tool' htool' => ?_
      cases heq
      obtain rfl := Option.some.inj (htool.symm.trans htool')
      cases allowed with
      | true => exact hopened rfl
      | false => cases hpass

/-! ## `tool_result` -/

theorem obeys_settleAttempt {event : ToolResultEvent} {a : MutationState} {messageId : String}
    (hconfirms : Confirms host past event a.attemptId messageId) :
    Obeying host (.toolResult event) past (settleAttempt host event a messageId)
      fun _ _ => True := by
  have hmono : ∀ past' : Past Fp, past ⊆ past' → Confirms host past' event a.attemptId messageId := by
    intro past' hsub
    obtain ⟨tool, l, b, htool, hlive, hrest⟩ := hconfirms.evidence
    exact ⟨tool, l, b, htool, hlive.mono hsub, hrest⟩
  unfold settleAttempt journalConfirm
  refine Prog.Obeys.bind (obeys_free fun _ => trivial) fun past₁ finishedAt hsub₁ _ => ?_
  refine Prog.Obeys.bind obeys_record fun past₂ _ hsub₂ _ => ?_
  refine Prog.Obeys.bind obeys_current fun past₃ _ hsub₃ _ => ?_
  refine Prog.Obeys.bind (obeys_free fun _ => trivial) fun past₄ work hsub₄ hwork => ?_
  refine Prog.Obeys.bind (M := fun _ _ => True) ?_ fun past₅ written _ _ => ?_
  · refine Prog.Obeys.bind obeys_require fun past₅ _ hsub₅ _ => ?_
    refine Prog.Obeys.bind (obeys_free fun _ => trivial) fun past₆ now hsub₆ _ => ?_
    refine Prog.Obeys.imp (obeys_ownedWrite (hwork.mono fun _ h => hsub₆ (hsub₅ h))
      ⟨rfl, event, rfl, hmono past₆ ?_⟩) fun _ _ _ => trivial
    exact fun _ h => hsub₆ (hsub₅ (hsub₄ (hsub₃ (hsub₂ (hsub₁ h)))))
  · refine Prog.Obeys.bind obeys_require fun past₆ _ _ _ => ?_
    refine Prog.Obeys.bind obeys_gate fun past₇ _ _ _ => ?_
    exact Prog.Obeys.imp (obeys_free fun _ => trivial) fun _ _ _ => trivial

theorem obeys_resultAction {event : ToolResultEvent} {tool : Tool}
    (htool : toolOf event.toolName = some tool) :
    Obeying host (.toolResult event) past (resultAction host tool event) fun _ _ => True := by
  unfold resultAction
  refine Prog.Obeys.bind obeys_gate fun past _ _ _ => ?_
  refine Prog.Obeys.bind (obeys_free fun _ => trivial) fun past l _ hlive => ?_
  split
  · exact Prog.obeys_throw
  · next a hcall =>
    split
    · exact Prog.obeys_throw
    · next hsame =>
      push Not at hsame
      split
      · exact Prog.Obeys.bind obeys_uncertain fun past _ _ _ => Prog.obeys_throw
      · next messageId hconfirmed =>
        exact obeys_settleAttempt
          ⟨tool, l, a, htool, hlive, hcall, rfl, hsame.1, hsame.2, hconfirmed⟩

theorem toolResult_obeys {event : ToolResultEvent} :
    Obeying host (.toolResult event) past (toolResult host event) (Ends host (.toolResult event)) := by
  have hends : ∀ past outcome, Ends host (.toolResult event) past outcome :=
    fun past outcome other heq => nomatch heq
  unfold toolResult
  split
  · exact Prog.obeys_pure (hends _ _)
  · next tool htool =>
    refine obeys_resolved (fun past => ?_) fun past => hends past _
    refine Prog.Obeys.bind (obeys_enqueue (fun past => obeys_resultAction htool)
      fun _ _ _ _ _ => trivial) fun past _ _ _ => Prog.obeys_pure (hends past _)

/-! ## The turn -/

theorem obeys_runBody : Obeying host part past (runBody host) fun _ _ => True := by
  unfold runBody
  refine Prog.Obeys.bind obeys_gate fun past _ _ _ => ?_
  refine Prog.Obeys.bind (obeys_free fun _ => trivial) fun past₁ work _ hwork => ?_
  refine Prog.Obeys.bind (obeys_journalList hwork) fun past₂ prior hsub₂ _ => ?_
  refine Prog.Obeys.bind obeys_require fun past₃ _ hsub₃ _ => ?_
  refine Prog.Obeys.bind obeys_prompted fun past₄ failure hsub₄ _ => ?_
  refine Prog.Obeys.bind obeys_awaitTail fun past₅ _ hsub₅ _ => ?_
  have hwork := hwork.mono fun _ h => hsub₅ (hsub₄ (hsub₃ (hsub₂ h)))
  refine Prog.Obeys.bind (obeys_journalList hwork) fun past₆ after _ _ => ?_
  refine Prog.Obeys.bind (obeys_free fun _ => trivial) fun past₇ l _ _ => ?_
  split
  · split
    · exact Prog.Obeys.bind obeys_uncertain fun _ _ _ _ => Prog.obeys_throw
    · exact Prog.obeys_throw
  · split
    · exact Prog.obeys_pure trivial
    · refine Prog.Obeys.bind obeys_gate fun past₈ _ _ _ => ?_
      exact Prog.Obeys.bind obeys_require fun _ _ _ _ => Prog.obeys_pure trivial

theorem obeys_run : Obeying host part past (run host) fun _ _ => True := by
  unfold run
  refine Prog.Obeys.bind (obeys_free fun _ => trivial) fun past _ _ _ => ?_
  refine Prog.Obeys.bind (obeys_free fun _ => trivial) fun past l _ _ => ?_
  refine Prog.Obeys.bind obeys_require fun past _ _ _ => ?_
  refine Prog.Obeys.bind (obeys_free fun _ => trivial) fun past _ _ _ => ?_
  refine Prog.Obeys.bind (Prog.Obeys.tryCatch obeys_runBody fun past code =>
    Prog.obeys_pure trivial) fun past failure _ _ => ?_
  split
  · refine Prog.Obeys.bind obeys_awaitTail fun past _ _ _ => ?_
    exact Prog.Obeys.imp (obeys_free fun _ => trivial) fun _ _ _ => trivial
  · refine Prog.Obeys.bind (obeys_free fun _ => trivial) fun past _ _ _ => ?_
    refine Prog.Obeys.bind obeys_awaitTail fun past _ _ _ => ?_
    exact Prog.Obeys.bind (obeys_free fun _ => trivial) fun _ _ _ _ => Prog.obeys_throw

omit [DecidableEq Fp] in
theorem obeys_confirmed : Obeying host part past (confirmed host) fun _ _ => True := by
  unfold confirmed
  refine Prog.Obeys.bind obeys_current fun past _ _ _ => ?_
  refine Prog.Obeys.bind (obeys_free fun _ => trivial) fun past work _ hwork => ?_
  refine Prog.Obeys.bind (obeys_journalList hwork) fun past records _ _ => ?_
  exact Prog.Obeys.bind obeys_require fun past _ _ _ => Prog.obeys_pure trivial

omit [DecidableEq Fp] in
theorem obeys_attach : Obeying host part past (attach host) fun _ _ => True := by
  unfold attach
  refine Prog.Obeys.bind (obeys_free fun _ => trivial) fun past _ _ _ => ?_
  refine Prog.Obeys.bind obeys_current fun past _ _ _ => ?_
  refine Prog.Obeys.bind (obeys_free fun _ => trivial) fun past l _ _ => ?_
  refine Prog.Obeys.bind (obeys_free fun _ => trivial) fun past work _ _ => ?_
  refine Prog.Obeys.bind obeys_require fun past _ _ _ => ?_
  exact Prog.Obeys.imp (obeys_free fun _ => trivial) fun _ _ _ => trivial

theorem obeys_sessionPrompt : Obeying host part past (sessionPrompt host) fun _ _ => True := by
  unfold sessionPrompt
  refine Prog.Obeys.bind obeys_current fun past _ _ _ => ?_
  refine Prog.Obeys.bind obeys_current fun past _ _ _ => ?_
  refine Prog.Obeys.bind obeys_run fun past _ _ _ => ?_
  refine Prog.Obeys.bind (obeys_free fun _ => trivial) fun past _ _ _ => ?_
  exact obeys_current

/-- The event is completed only with the marker that `findEvent` has found. -/
theorem obeys_complete {work : ClaimedWork} {proof : CompletionProof Fp}
    (hwork : Answered past .work work) :
    Obeying host part past (complete host work proof) fun _ _ => True := by
  unfold complete
  refine Prog.Obeys.bind obeys_require fun past _ hsub _ => ?_
  have hwork := hwork.mono hsub
  split
  · exact Prog.obeys_pure trivial
  · next hsame =>
    push Not at hsame
    refine Prog.Obeys.bind (obeys_free fun _ => trivial) fun past found hsub hfound => ?_
    split
    · exact Prog.obeys_pure trivial
    · next durable =>
      split
      · exact Prog.obeys_pure trivial
      · next heq =>
        obtain rfl := of_not_not heq
        exact Prog.Obeys.imp (obeys_ownedWrite (hwork.mono hsub)
          ⟨rfl, durable, hfound, rfl, rfl, hsame.2⟩) fun _ _ _ => trivial

omit [DecidableEq Fp] in
theorem obeys_attachTurn : Obeying host part past (attachTurn host) fun _ _ => True := by
  unfold attachTurn
  refine Prog.Obeys.bind obeys_current fun past _ _ _ => ?_
  refine Prog.Obeys.bind obeys_current fun past _ _ _ => ?_
  refine Prog.Obeys.bind obeys_attach fun past _ _ _ => ?_
  refine Prog.Obeys.bind obeys_current fun past _ _ _ => ?_
  exact obeys_current

theorem obeys_prepareTurn : Obeying host part past (prepareTurn host) fun _ _ => True := by
  unfold prepareTurn
  refine Prog.Obeys.bind (obeys_free fun _ => trivial) fun past _ _ _ => ?_
  refine Prog.Obeys.bind obeys_current fun past _ _ _ => ?_
  refine Prog.Obeys.bind (obeys_free fun _ => trivial) fun past work _ hwork => ?_
  refine Prog.Obeys.bind (obeys_ownedWrite hwork rfl) fun past begun _ _ => ?_
  exact Prog.Obeys.imp obeys_require fun _ _ _ => trivial

theorem obeys_promptTurn : Obeying host part past (promptTurn host) fun _ _ => True := by
  unfold promptTurn
  refine Prog.Obeys.bind obeys_current fun past _ _ _ => ?_
  refine Prog.Obeys.bind obeys_current fun past _ _ _ => ?_
  refine Prog.Obeys.bind obeys_sessionPrompt fun past _ _ _ => ?_
  refine Prog.Obeys.bind obeys_current fun past _ _ _ => ?_
  exact Prog.Obeys.imp (obeys_free fun _ => trivial) fun _ _ _ => trivial

theorem obeys_completeTurn : Obeying host part past (completeTurn host) fun _ _ => True := by
  unfold completeTurn
  refine Prog.Obeys.bind obeys_current fun past _ _ _ => ?_
  refine Prog.Obeys.bind obeys_confirmed fun past sends _ _ => ?_
  refine Prog.Obeys.bind obeys_current fun past _ _ _ => ?_
  refine Prog.Obeys.bind (obeys_free fun _ => trivial) fun past work _ _ => ?_
  refine Prog.Obeys.bind (obeys_free fun _ => trivial) fun past entryId _ _ => ?_
  refine Prog.Obeys.bind obeys_current fun past _ _ _ => ?_
  refine Prog.Obeys.bind (obeys_free fun _ => trivial) fun past work _ hwork => ?_
  refine Prog.Obeys.bind (obeys_complete hwork) fun past done _ _ => ?_
  exact Prog.Obeys.imp obeys_require fun _ _ _ => trivial

theorem turn_obeys : Obeying host .turn past (turn host) (Ends host .turn) := by
  have hends : ∀ past outcome, Ends host .turn past outcome := fun _ _ => ends_of_ne nofun
  unfold turn pauseTurn
  refine Prog.Obeys.tryCatch ?_ fun past code => ?_
  · refine Prog.Obeys.bind (obeys_within obeys_attachTurn) fun past _ _ _ => ?_
    refine Prog.Obeys.bind (obeys_within obeys_prepareTurn) fun past _ _ _ => ?_
    refine Prog.Obeys.bind (obeys_within ?_) fun past _ _ _ => Prog.obeys_pure (hends _ _)
    exact Prog.Obeys.bind obeys_promptTurn fun past _ _ _ => obeys_completeTurn
  · refine Prog.Obeys.bind (obeys_free fun _ => trivial) fun past gone _ _ => ?_
    split
    · exact Prog.obeys_pure (hends _ _)
    · refine Prog.Obeys.tryCatch ?_ fun past code => ?_
      · refine Prog.Obeys.bind obeys_current fun past _ _ _ => ?_
        refine Prog.Obeys.bind (obeys_free fun _ => trivial) fun past work _ hwork => ?_
        exact Prog.Obeys.bind (obeys_ownedWrite hwork rfl) fun past _ _ _ =>
          Prog.obeys_pure (hends _ _)
      · exact Prog.Obeys.bind (obeys_free fun _ => trivial) fun past _ _ _ =>
          Prog.obeys_pure (hends _ _)

/-- Every program of a turn obeys. -/
theorem program_obeys (part : Part) :
    Obeying host part [] (part.program host) (Ends host part) := by
  cases part with
  | turn => exact turn_obeys
  | toolCall event => exact toolCall_obeys
  | toolResult event => exact toolResult_obeys
  | sessionStart =>
    exact Prog.Obeys.bind (obeys_free fun _ => trivial) fun past _ _ _ =>
      Prog.obeys_pure (ends_of_ne nofun)
  | renewal =>
    refine Prog.Obeys.tryCatch ?_ fun past code => ?_
    · exact Prog.Obeys.bind obeys_current fun past _ _ _ => Prog.obeys_pure (ends_of_ne nofun)
    · exact Prog.Obeys.bind (obeys_free fun _ => trivial) fun past _ _ _ =>
        Prog.obeys_pure (ends_of_ne nofun)

end Rules

end WhatsAppMcp.Controller.Pi.ToolJournal
