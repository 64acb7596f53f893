import WhatsAppMcp.Controller.Pi.Mutations

/-!
# The laws of mutations

What the calls of a turn mean for the journal of its chat.

* `begun_of_ended`: a mutating call that is let through was begun under the
  leases of the turn.
* `settled_run`: a settled attempt is never settled again.
* `confirmed_by_result`: only the result of its own call confirms an attempt.
* `mutations_journalled`: these laws, and that of the completion.
-/

namespace WhatsAppMcp.Controller.Pi.ToolJournal

open Calls Redis
open Trace (Exec)

variable {Fp : Type} [DecidableEq Fp] {chats : List String} {host : Host Fp} {time : Nat}
  {work : ClaimedWork} {p q : Turning Fp} {d : Option (Nat × Said (@Query.Answer Fp))}

/-! ## Before the call -/

/-- The attempt of the call was begun under the leases of the turn, for its event. -/
def BegunBefore (chats : List String) (host : Host Fp) (time : Nat) (work : ClaimedWork)
    (labels : List (Label Fp)) (tool : Tool) (event : ToolCallEvent) : Prop :=
  ∃ pre post u clk now session a e,
    labels = pre ++ some (⟨work.event.canonicalChatJid, beginOp host now session a, clk⟩, .ok) :: post ∧
    Exec (System.Step .durable chats host.fingerprint) (System.empty time) pre u ∧
    u.store.time ≤ clk.now 0 ∧
    (u.store.keys work.event.canonicalChatJid).work clk (argsFor host.fingerprint work) = some e ∧
    SameWork host work now ∧ AttemptFor now tool event a

theorem begun_of_opened (h : p.Sound chats host time work) {i : Nat} {part : Part}
    {th : Thread (Query Fp) Query.Answer ErrorClass Outcome} (hthread : p.threads i = some (part, th))
    {tool : Tool} {event : ToolCallEvent} {a : MutationState} (hopened : Opened host th.past tool event a) :
    BegunBefore chats host time work p.world.labels tool event := by
  obtain ⟨now, session, hattempt, hnow, hbegin⟩ := hopened
  have hsame := h.sameWork hthread hnow
  obtain ⟨clk, hl⟩ := h.facts i part th hthread _ hbegin
  obtain ⟨pre, post, hsplit⟩ := List.append_of_mem hl
  have hrun := h.run
  rw [hsplit] at hrun
  obtain ⟨u, v, hfirst, hstep, -⟩ := hrun.split_cons
  obtain ⟨hstart, hopening⟩ := begin_step hstep.store
  obtain ⟨e, hwork⟩ := hopening.held
  rw [hsame.event, hsame.args] at hwork
  rw [hsame.event] at hsplit
  exact ⟨pre, post, u, clk, now, session, a, e, hsplit, hfirst, hstart, hwork, hsame, hattempt⟩

/-! ## Once settled -/

omit [DecidableEq Fp] in
theorem lookup_mem {calls : List (String × MutationState)} {toolCallId : String} {a : MutationState}
    (h : calls.lookup toolCallId = some a) : (toolCallId, a) ∈ calls := by
  obtain ⟨l₁, l₂, rfl, -⟩ := List.lookup_eq_some_iff.mp h
  simp

/-- A step of the turn is a step of the system, or none. -/
theorem Turning.Sound.base_step (h : p.Sound chats host time work)
    (hstep : Turning.Step chats host p d q) :
    q.world.labels = p.world.labels ∧ q.world.base.store = p.world.base.store ∨
      ∃ l, q.world.labels = p.world.labels ++ [l] ∧
        System.Step .durable chats host.fingerprint p.world.base l q.world.base := by
  cases hstep with
  | move hmove =>
    cases hmove with
    | step hbase => exact Or.inr ⟨_, rfl, hbase⟩
  | start => exact Or.inl ⟨rfl, rfl⟩
  | ask hthread hasked =>
    have hallowed := h.obedient.asked hthread hasked
    cases hasked with
    | ask answer =>
      cases answer with
      | script hran | unanswered hran => exact Or.inr ⟨_, rfl, h.called hthread hallowed hran⟩
      | append => exact Or.inr ⟨_, rfl, .append _⟩
      | _ => exact Or.inl ⟨rfl, rfl⟩

theorem run_sound (h : p.Sound chats host time work) {ds : List (Option (Nat × Said (@Query.Answer Fp)))}
    (hrun : Exec (Turning.Step chats host) p ds q) : q.Sound chats host time work :=
  hrun.invariant (P := fun p => Turning.Sound chats host time work p) h
    fun _ _ _ hp hstep => step_sound hp hstep

/-- A settled attempt keeps its status, and a confirmed one stays as it is, until
its event is completed. -/
theorem settled_run (h : p.Sound chats host time work)
    {ds : List (Option (Nat × Said (@Query.Answer Fp)))} (hrun : Exec (Turning.Step chats host) p ds q)
    {chat a : String} {old : JournalEnvelope Fp}
    (hlookup : (p.world.base.store.chats chat).tools.lookup a = some (.native old))
    (hsettled : old.state.status ≠ .attempting) :
    (∃ new, (q.world.base.store.chats chat).tools.lookup a = some (.native new) ∧
      new.state.status = old.state.status ∧ (old.state.status = .confirmed → new = old)) ∨
      Completes host.fingerprint q.world.labels chat old.state.eventId := by
  suffices (∃ new, (q.world.base.store.chats chat).tools.lookup a = some (.native new) ∧
      Continues old new) ∨ Completes host.fingerprint q.world.labels chat old.state.eventId by
    rcases this with ⟨new, hnew, hcontinues⟩ | hcompleted
    · exact Or.inl ⟨new, hnew, hcontinues.status hsettled, hcontinues.kept⟩
    · exact Or.inr hcompleted
  induction hrun with
  | nil => exact Or.inl ⟨old, hlookup, .refl old⟩
  | snoc run last ih =>
    have hsound := run_sound h run
    rcases hsound.base_step last with ⟨hlabels, hstore⟩ | ⟨l, hlabels, hbase⟩
    · rw [hlabels, hstore]
      exact ih
    · rw [hlabels]
      rcases ih with ⟨mid, hmid, hcontinues⟩ | hcompleted
      · have hjournal := (run_journalled (exec_store hsound.run)).2
        rcases record_step hjournal hmid hbase.store with ⟨new, hnew, hnext⟩ | ⟨w, hw, hevent⟩
        · exact Or.inl ⟨new, hnew, hcontinues.trans hnext⟩
        · refine Or.inr ⟨w, ?_, hevent.trans hcontinues.advances.call.2.2.2⟩
          rw [observed, List.filterMap_append]
          exact List.mem_append_right _ hw
      · exact Or.inr (hcompleted.append [l])

/-! ## Confirmed by its own result -/

/-- The step confirms the attempt `a` of `record` because a result of its own call
reports this message id. -/
def ConfirmedBy (host : Host Fp) (work : ClaimedWork) (p : Turning Fp)
    (d : Option (Nat × Said (@Query.Answer Fp))) (a : String) (record : JournalEnvelope Fp)
    (messageId : String) : Prop :=
  ∃ i event th tool finishedAt answer, p.threads i = some (.toolResult event, th) ∧
    d = some (i, said (.script work.event.canonicalChatJid
      (.journalTransition (argsFor host.fingerprint work) a (.confirmed messageId finishedAt))) answer) ∧
    event.toolCallId = record.state.toolCallId ∧ toolOf event.toolName = some tool ∧
    tool.name = record.state.tool ∧
    mutationDestination tool event.input = some record.state.destination ∧
    Reports host.parse event messageId

/-- The attempt that the map has under the id of a call is the one that stands in
the journal under its id, while the leases of the turn hold. -/
theorem Turning.Sound.attempt_eq (h : p.Sound chats host time work) {toolCallId : String}
    {attempt : MutationState} (hopened : p.Opened host toolCallId attempt) {old : JournalEnvelope Fp}
    (hlookup : (p.world.base.store.chats work.event.canonicalChatJid).tools.lookup attempt.attemptId =
      some (.native old)) {clk : Clock} {e : EventRecord Fp}
    (hpass : (p.world.base.store.keys work.event.canonicalChatJid).work clk
      (argsFor host.fingerprint work) = some e) :
    old.state.toolCallId = toolCallId ∧ old.state.tool = attempt.tool ∧
      old.state.destination = attempt.destination := by
  obtain ⟨i, event, tool, th, hthread, rfl, now, session, hattempt, hnow, hbegin⟩ := hopened
  have hsame := h.sameWork hthread hnow
  obtain ⟨clk', hl⟩ := h.facts i _ th hthread _ hbegin
  rw [hsame.event] at hl
  rcases begun_run (exec_store h.run) hl ⟨session, clk', rfl⟩ with ⟨new, hnew, hcontinues⟩ | ⟨w, hw, hid⟩
  · obtain rfl : new = old := JournalRecord.native.inj (Option.some.inj (hnew.symm.trans hlookup))
    obtain ⟨htoolCallId, htool, hdestination, -⟩ := hcontinues.advances.call
    exact ⟨htoolCallId.trans hattempt.toolCallId, htool, hdestination⟩
  · -- the event of the turn is active
    have hactive := (work_eq_some hpass).2.1
    have hgone : (p.world.base.store.core work.event.canonicalChatJid).events.lookup w.eventId = none :=
      completed_inactive (markers_complete h.run) hw
    have hevent : w.eventId = (argsFor host.fingerprint work).eventId := by
      rw [hid, ← hsame.args]
      exact hattempt.eventId
    rw [hevent] at hgone
    exact absurd (hactive.symm.trans hgone) nofun

/-- What a step of the store must be to confirm an open attempt of the turn. -/
theorem transition_of_confirmed (h : p.Sound chats host time work) {l : Label Fp} {t : Store Fp}
    (hstep : Store.Step chats host.fingerprint p.world.base.store l t) {l₀ : Label Fp} {a : String}
    {record old new : JournalEnvelope Fp} (hl₀ : l₀ ∈ p.world.labels)
    (hbegins : BeginsAttempt l₀ work.event.canonicalChatJid a (argsFor host.fingerprint work) record)
    (hold : (p.world.base.store.chats work.event.canonicalChatJid).tools.lookup a = some (.native old))
    (hadvances : Advances record old) (hopen : old.state.status = .attempting)
    (hnew : (t.chats work.event.canonicalChatJid).tools.lookup a = some (.native new))
    (hconfirmed : new.state.status = .confirmed) :
    ∃ messageId finishedAt clk e,
      l = some (⟨work.event.canonicalChatJid, .journalTransition (argsFor host.fingerprint work) a
        (.confirmed messageId finishedAt), clk⟩, .ok) ∧
      (p.world.base.store.keys work.event.canonicalChatJid).work clk
        (argsFor host.fingerprint work) = some e ∧ new.state.messageId = some messageId := by
  have hjournal := (run_journalled (exec_store h.run)).2
  have hmoves : (t.chats work.event.canonicalChatJid).tools ≠
      (p.world.base.store.chats work.event.canonicalChatJid).tools := by
    intro htools
    rw [htools] at hnew
    obtain rfl := JournalRecord.native.inj (Option.some.inj (hold.symm.trans hnew))
    rw [hopen] at hconfirmed
    cases hconfirmed
  obtain ⟨-, ⟨-, hcore⟩ | ⟨c, r, rfl, -, -, -, heffect, hother⟩⟩ := hstep.cases_on_core
  · exact absurd (congrArg Core.tools (hcore _)) hmoves
  by_cases hchat : work.event.canonicalChatJid = c.chat
  · obtain ⟨chat, op, clk⟩ := c
    obtain rfl : work.event.canonicalChatJid = chat := hchat
    rcases native_effect heffect (hjournal _).keyed hold with
      ⟨new', hnew', hmoved⟩ | ⟨w, session, sends, -, -, -, -, hempty⟩
    · obtain rfl := JournalRecord.native.inj (Option.some.inj (hnew'.symm.trans hnew))
      obtain ⟨w, messageId, finishedAt, e, rfl, rfl, hpass, rfl⟩ := hmoved.confirmed hopen hconfirmed
      obtain rfl := passes_of_begun (exec_store h.run) hl₀ hbegins hold hadvances hopen hpass
      exact ⟨messageId, finishedAt, clk, e, rfl, hpass, rfl⟩
    · have htools : (t.chats work.event.canonicalChatJid).tools = ∅ := hempty
      rw [htools] at hnew
      cases hnew
  · exact absurd (congrArg Core.tools (hother _ hchat)) hmoves

/-- Only a result of its own call confirms an attempt of the turn. -/
theorem confirmed_by_result (h : p.Sound chats host time work)
    (hstep : Turning.Step chats host p d q) {l : Label Fp} {a : String}
    {record old new : JournalEnvelope Fp} (hl : l ∈ p.world.labels)
    (hbegins : BeginsAttempt l work.event.canonicalChatJid a (argsFor host.fingerprint work) record)
    (hold : (p.world.base.store.chats work.event.canonicalChatJid).tools.lookup a = some (.native old))
    (hadvances : Advances record old) (hopen : old.state.status = .attempting)
    (hnew : (q.world.base.store.chats work.event.canonicalChatJid).tools.lookup a = some (.native new))
    (hconfirmed : new.state.status = .confirmed) :
    ∃ messageId, new.state.messageId = some messageId ∧
      ConfirmedBy host work p d a record messageId := by
  have hmoved : q.world.base.store ≠ p.world.base.store := by
    intro hstore
    rw [hstore] at hnew
    obtain rfl := JournalRecord.native.inj (Option.some.inj (hold.symm.trans hnew))
    rw [hopen] at hconfirmed
    cases hconfirmed
  cases hstep with
  | start => exact absurd rfl hmoved
  | move hmove =>
    cases hmove with
    | step hbase hothers =>
      obtain ⟨messageId, finishedAt, clk, e, rfl, -, -⟩ :=
        transition_of_confirmed h hbase.store hl hbegins hold hadvances hopen hnew hconfirmed
      refine absurd ?_ (hothers _ _ rfl (by rw [h.same.event]))
      exact h.same.args.symm
  | @ask i part th th' turn t hthread hasked =>
    have hallowed := h.obedient.asked hthread hasked
    cases hasked with
    | @ask past query next answer t hanswer =>
      have hcalled : ∀ {chat : String} {op : Op Fp} {clk : Clock} {r : Reply Fp} {store : Store Fp}
          {answer : Except ErrorClass (Reply Fp)},
          Allowed host part past (.script chat op) →
          Store.Step chats host.fingerprint p.world.base.store (some (⟨chat, op, clk⟩, r)) store →
          (store.chats work.event.canonicalChatJid).tools.lookup a = some (.native new) →
          ∃ messageId, new.state.messageId = some messageId ∧
            ConfirmedBy host work p (some (i, said (.script chat op) answer)) a record messageId := by
        intro chat op clk r store answer hallowed hstore hnew
        obtain ⟨messageId, finishedAt, clk, e, heq, hpass, hmessage⟩ :=
          transition_of_confirmed h hstore hl hbegins hold hadvances hopen hnew hconfirmed
        cases heq
        obtain ⟨now, hnow, hchat, -, event, rfl, hconfirms⟩ := hallowed
        obtain ⟨tool, l', attempt, htool, hlive, hcall, rfl, hname, hdestination, hmessageId⟩ :=
          hconfirms.evidence
        have hopened := h.facts i _ _ hthread _ hlive _ (lookup_mem hcall)
        obtain ⟨hid, htool', hdestination'⟩ := h.attempt_eq hopened hold hpass
        obtain ⟨hrid, hrtool, hrdestination, -⟩ := hadvances.call
        refine ⟨messageId, hmessage, i, event, _, tool, finishedAt, answer, hthread, rfl,
          hid.symm.trans hrid, htool, ?_, ?_, confirmedMessage_reports hmessageId⟩
        · rw [← hrtool, htool', hname]
        · rw [← hrdestination, hdestination', hdestination]
      cases hanswer with
      | script hran | unanswered hran =>
        exact hcalled hallowed (h.called hthread hallowed hran).store hnew
      | _ => exact absurd rfl hmoved

/-! ## The laws together -/

/-- In every run of a turn, for any events of the model host beside anything else
that happens: a mutating call that is let through was begun before, under the
leases of the turn and for its event; a settled attempt is not settled again
before its event is completed; an attempt of the turn is confirmed only by a
successful result of its own call, with the message id of that result; and when
the event is completed, its marker is durable and reports every attempt that was
begun for it, each of them confirmed. -/
theorem mutations_journalled {es : List (Label Fp)} {base : System Fp}
    (h₀ : Exec (System.Step .durable chats host.fingerprint) (System.empty time) es base)
    {ds : List (Option (Nat × Said (@Query.Answer Fp)))}
    (h : Exec (Turning.Step chats host) (Turning.start host es base work) ds p) :
    (∀ i event past outcome, p.threads i = some (.toolCall event, ⟨past, .done outcome⟩) →
      outcome.letsThrough = true → ∀ tool, toolOf event.toolName = some tool →
        BegunBefore chats host time work p.world.labels tool event) ∧
    (∀ a old, (p.world.base.store.chats work.event.canonicalChatJid).tools.lookup a =
        some (.native old) → old.state.status ≠ .attempting →
      ∀ fs q, Exec (Turning.Step chats host) p fs q →
        (∃ new, (q.world.base.store.chats work.event.canonicalChatJid).tools.lookup a =
            some (.native new) ∧ new.state.status = old.state.status ∧
            (old.state.status = .confirmed → new = old)) ∨
          Completes host.fingerprint q.world.labels work.event.canonicalChatJid old.state.eventId) ∧
    (∀ l a record old new d q, l ∈ p.world.labels →
      BeginsAttempt l work.event.canonicalChatJid a (argsFor host.fingerprint work) record →
      (p.world.base.store.chats work.event.canonicalChatJid).tools.lookup a = some (.native old) →
      Advances record old → old.state.status = .attempting →
      Turning.Step chats host p d q →
      (q.world.base.store.chats work.event.canonicalChatJid).tools.lookup a = some (.native new) →
      new.state.status = .confirmed →
        ∃ messageId, new.state.messageId = some messageId ∧
          ConfirmedBy host work p d a record messageId) ∧
    ∀ pre post w session sends clk, p.world.labels =
        pre ++ some (⟨work.event.canonicalChatJid, .complete w session sends, clk⟩, .ok) :: post →
      ∃ v, Exec (System.Step .durable chats host.fingerprint) (System.empty time) pre v ∧
        (∃ m ∈ v.markers, VerifiedProof m work.event.canonicalChatJid w.eventId ∧
          m.confirmedSends = sends) ∧
        ∀ l a x record, l ∈ pre → BeginsAttempt l work.event.canonicalChatJid a x record →
          record.state.eventId = w.eventId →
            v.store.Reported work.event.canonicalChatJid a record sends := by
  have hsound := run_sound (start_sound h₀) h
  refine ⟨?_, ?_, ?_, ?_⟩
  · intro i event past outcome hthread hpasses tool htool
    obtain ⟨a, hopened⟩ := hsound.obedient.ended hthread event rfl hpasses tool htool
    exact begun_of_opened hsound hthread hopened
  · intro a old hlookup hsettled fs q hrun
    exact settled_run hsound hrun hlookup hsettled
  · intro l a record old new d q hl hbegins hold hadvances hopen hstep hnew hconfirmed
    exact confirmed_by_result hsound hstep hl hbegins hold hadvances hopen hnew hconfirmed
  · intro pre post w session sends clk hsplit
    have hrun := hsound.run
    rw [hsplit] at hrun
    exact completed_settled hrun

/-! ## A sample call -/

/-- An id of `OpaqueIdSchema`. -/
def sampleId (c : Char) : String := String.ofList (List.replicate 32 c)

def sampleCallEvent : NotificationV2 := { sampleEvent with eventId := sampleId 'e' }

def sampleCallSession : SessionBinding := ⟨"1@g.us", "session-1", "session-1.jsonl"⟩

/-- The work of the claim below. -/
def sampleCallWork : ClaimedWork where
  streamId := ⟨3, 0⟩
  event := sampleCallEvent
  ownership := ⟨⟨sampleId 'a', "1", 102⟩, ⟨sampleId 'b', "1", 54⟩⟩

/-- An event is its own digest. -/
def sampleHost : Host NotificationV2 := ⟨id, sampleCallSession, 50, fun _ => none⟩

/-- `send_group_message` to the chat of the event. -/
def sampleCall : ToolCallEvent :=
  ⟨"call-1", "mcp__whatsapp_session_controller__send_group_message", [("jid", .string "1@g.us")]⟩

/-- A world that answers at once, with one attempt id and one time. -/
def respond (w : World NotificationV2) (q : Query NotificationV2) :
    Option (q.Answer × World NotificationV2) :=
  match q with
  | .script chat op =>
    if chat ∈ ["1@g.us"] then
      let reply := op.run (.frozen w.base.store.time) (w.base.store.keys chat)
      some (.ok reply.1, w.called id ⟨chat, op, .frozen w.base.store.time⟩ reply.1
        (w.base.store.write chat reply.2 w.base.store.time))
    else none
  | .work => some (.ok w.work, w)
  | .lost => some (.ok w.lost, w)
  | .lose => some (.ok (), { w with lost := true })
  | .renewed epoch untilMs => some (.ok (), { w with work := renewedWork w.work epoch untilMs })
  | .live => some (.ok w.live, w)
  | .update u => some (.ok (), { w with live := w.live.update u })
  | .enqueue =>
    some (.ok w.live.enqueued, { w with live := { w.live with enqueued := w.live.enqueued + 1 } })
  | .turn ticket => if ticket ≤ w.live.settled then some (.ok (), w) else none
  | .record _ => some (.ok (), w)
  | .port .prompt => none
  | .port _ => some (.ok (), w)
  | .tools => some (.ok [⟨sampleCall.toolName, mcpAdapterSourcePath, "inline"⟩], w)
  | .randomBytes => some (.ok (sampleId 'f'), w)
  | .now => some (.ok "2026-01-01T00:00:02.000Z", w)
  | .findEvent _ _ | .append _ _ => none

theorem respond_answers (w : World NotificationV2) (q : Query NotificationV2) (a : q.Answer)
    (t : World NotificationV2) (h : respond w q = some (a, t)) :
    World.Answers ["1@g.us"] sampleHost w q a t := by
  cases q with
  | script chat op =>
    simp only [respond] at h
    split at h
    · next hchat =>
      cases h
      exact .script ⟨hchat, le_refl _, fun _ => le_refl _, _, rfl, rfl⟩
    · cases h
  | turn ticket =>
    simp only [respond] at h
    split at h
    · next hsettled =>
      cases h
      exact .turn hsettled
    · cases h
  | port p => cases p <;> cases h <;> exact .outside trivial
  | lost =>
    cases h
    exact .lost id
  | findEvent | append => cases h
  | work | lose | renewed | live | update | enqueue =>
    cases h
    constructor
  | record | tools | randomBytes | now =>
    cases h
    exact .outside trivial

/-- The outcome of a thread that has ended. -/
def outcome? (p : Turning NotificationV2) (i : Nat) : Option Outcome :=
  match p.threads i with
  | some (_, ⟨_, .done outcome⟩) => some outcome
  | _ => none

/-- The system in which the event is claimed and its chat is bound to the session. -/
def sampleBound : System NotificationV2 where
  store := ((Store.empty 0).drive
    [("1@g.us", 1, .init "1@g.us"), ("1@g.us", 2, .appAcquire (sampleId 'a') 100),
      ("1@g.us", 3, .accept "0" sampleCallEvent sampleCallEvent false "0"),
      ("1@g.us", 4, .claim ⟨sampleId 'a', "1", sampleId 'b', 50, 10⟩),
      ("1@g.us", 5, .bind (argsFor id sampleCallWork) sampleCallSession)]).2
  markers := []
  completions := []
  calls := Function.update (fun _ => none) 0 (some ⟨sampleCallEvent, 0, .flush .accepted⟩)

/-- The session starts as thread `1`. -/
def sampleStarted (es : List (Label NotificationV2)) : Turning NotificationV2 :=
  (Turning.start sampleHost es sampleBound sampleCallWork).launch (Part.program sampleHost) respond 1
    .sessionStart 9

/-- The turn runs to its prompt. -/
def samplePrompted (es : List (Label NotificationV2)) : Turning NotificationV2 :=
  (sampleStarted es).drive respond 0 99

/-- The call is handled by thread `2`. -/
def sampleCalled (es : List (Label NotificationV2)) : Turning NotificationV2 :=
  (samplePrompted es).launch (Part.program sampleHost) respond 2 (.toolCall sampleCall) 199

/-- The event is claimed and its chat bound, and then the call is let through. -/
theorem sampleCalled_allowed : ∃ es,
    Exec (System.Step .durable ["1@g.us"] id) (System.empty 0) es sampleBound ∧
      outcome? (sampleCalled es) 2 = some .allowed := by
  have h₀ : Exec (System.Step .durable ["1@g.us"] id) (System.empty 0) [] (System.empty 0) := .nil
  have h₁ := exec_client h₀ "1@g.us" 1 (.init "1@g.us") ⟨List.mem_singleton.mpr rfl, trivial⟩
    (by decide) ⟨id, trivial⟩
  have h₂ := exec_client h₁ "1@g.us" 2 (.appAcquire (sampleId 'a') 100)
    ⟨List.mem_singleton.mpr rfl, trivial⟩ (by decide) ⟨id, trivial⟩
  have h₃ := exec_accept sampleCallEvent h₂ 0 3 rfl (by decide)
    (fun u since hu m hm => absurd (hu ▸ List.mem_of_mem_take hm) List.not_mem_nil) rfl
  have h₄ := exec_client h₃ "1@g.us" 4 (.claim ⟨sampleId 'a', "1", sampleId 'b', 50, 10⟩)
    ⟨List.mem_singleton.mpr rfl, trivial⟩ (by decide) ⟨id, trivial⟩
  have h₅ := exec_client h₄ "1@g.us" 5 (.bind (argsFor id sampleCallWork) sampleCallSession)
    ⟨List.mem_singleton.mpr rfl, trivial⟩ (by decide) ⟨id, trivial⟩
  refine ⟨_, h₅, ?_⟩
  decide +kernel

/-- The sample run. -/
theorem sampleCalled_reached (es : List (Label NotificationV2)) : ∃ ds,
    Exec (Turning.Step ["1@g.us"] sampleHost)
      (Turning.start sampleHost es sampleBound sampleCallWork) ds (sampleCalled es) := by
  have hidle : (samplePrompted es).threads 2 = none := by
    rw [samplePrompted, sampleStarted, Pool.drive_of_ne (by decide), Pool.launch_of_ne (by decide)]
    rfl
  have hfree : (Turning.start sampleHost es sampleBound sampleCallWork).threads 1 = none := rfl
  obtain ⟨ds₁, h₁⟩ : ∃ ds, Exec (Turning.Step ["1@g.us"] sampleHost) _ ds (sampleStarted es) :=
    Pool.launch_exec respond_answers 9 hfree (by intro h; cases h)
  obtain ⟨ds₂, h₂⟩ : ∃ ds, Exec (Turning.Step ["1@g.us"] sampleHost) _ ds (samplePrompted es) :=
    Pool.drive_exec respond_answers 0 99 _
  obtain ⟨ds₃, h₃⟩ : ∃ ds, Exec (Turning.Step ["1@g.us"] sampleHost) _ ds (sampleCalled es) :=
    Pool.launch_exec respond_answers 199 hidle (by intro h; cases h)
  exact ⟨_, (h₁.append h₂).append h₃⟩

/-- The call stands in its thread with its outcome. -/
theorem thread_of_outcome {p : Turning NotificationV2} {i : Nat} {part : Part} {outcome : Outcome}
    (hthread : ∃ th, p.threads i = some (part, th)) (h : outcome? p i = some outcome) :
    ∃ past, p.threads i = some (part, ⟨past, .done outcome⟩) := by
  obtain ⟨⟨past, rest⟩, hthread⟩ := hthread
  cases rest <;> simp [outcome?, hthread] at h
  subst h
  exact ⟨past, hthread⟩

/-- The first law at a call that is let through. -/
theorem mutations_journalled_of_sampleCalled : ∃ es,
    outcome? (sampleCalled es) 2 = some .allowed ∧
      BegunBefore ["1@g.us"] sampleHost 0 sampleCallWork (sampleCalled es).world.labels
        .sendGroupMessage sampleCall := by
  obtain ⟨es, hbase, houtcome⟩ := sampleCalled_allowed
  obtain ⟨ds, hrun⟩ := sampleCalled_reached es
  have hstands : ∃ th, (sampleCalled es).threads 2 = some (.toolCall sampleCall, th) := by
    unfold sampleCalled
    exact Pool.launch_self
  obtain ⟨past, hthread⟩ := thread_of_outcome hstands houtcome
  have htool : toolOf sampleCall.toolName = some .sendGroupMessage := by decide
  have hpasses : Outcome.allowed.letsThrough = true := rfl
  have hlaws := mutations_journalled hbase hrun
  have hbegun := hlaws.1 2 sampleCall past .allowed hthread hpasses .sendGroupMessage htool
  exact ⟨es, houtcome, hbegun⟩

end WhatsAppMcp.Controller.Pi.ToolJournal
