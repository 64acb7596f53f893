import WhatsAppMcp.Delivery.Agreement
import WhatsAppMcp.Delivery.Enqueue

/-!
# The order from end to end

The bridge numbers the notifications of a chat as it saves their messages, and the controller
completes the events of a chat by their numbers.  Between the two a request may be lost, repeated
or overtaken by another.  What comes out is still what went in: the completed events of a chat are
its first notifications, one after another.

A request carries a signature with the secret that the two services share, so every call of
`accept` comes from a request of the bridge (`Link.Signed`).

* `Link.Sourced` says which notification the event of a call is, and `sourced_step` is the step
  lemma.
* `completed_prefix`: the completed events of a chat are a prefix of its notifications.
* `stalled_of_undeliverable`: a notification that no request can carry is where its chat ends.
-/

namespace WhatsAppMcp.Delivery

open Trace (Exec)
open Bridge.Store (Notification OutboxEvent OutboxRow)
open Bridge.Notify (payloadBytes)
open Controller (NotificationV2)
open Controller.Redis (Observation observed completions)

/-! ## Notifications and rows -/

/-- A notification of schema version 2 that is read back has the values of its row. -/
theorem populate_reads {row : OutboxRow} {n : Notification}
    (h : Bridge.Store.populateClaimedNotification row = .ok n) (hversion : n.schemaVersion = 2) :
    Reads n row := by
  unfold Bridge.Store.populateClaimedNotification at h
  dsimp only at h
  split at h
  · next hone =>
    split at h
    · cases h
    · cases h
      have htwo : row.schemaVersion = 2 := hversion
      omega
  split at h
  · next htwo =>
    split at h
    · next canonical sequence sender kind fromMe hcanonical hsequence hsender hkind hfrom =>
      split at h
      · cases h
      · cases h
        exact ⟨rfl, htwo, rfl, rfl, hcanonical, rfl, rfl, rfl, hsequence, hsender, rfl, hkind, hfrom⟩
    · cases h
  · cases h

/-- A claim reads its answer back from a row of the outbox. -/
theorem reads_of_answer {env : Bridge.Store.Env} {db : Bridge.Store.Database} {allowed : List String}
    {maxAttempts lease : Int} {n : Notification} (hversion : n.schemaVersion = 2)
    (h : (Bridge.Store.claimNotification env db allowed maxAttempts lease).2 = .ok (some n)) :
    ∃ row, row.toOutboxEvent ∈ db.events ∧ Reads n row := by
  rcases Bridge.Store.claimNotification_cases env db allowed maxAttempts lease
    with ⟨-, hnone⟩ | ⟨token, result, -, htx, hresult⟩
  · exact absurd h (hnone n)
  rw [h] at hresult
  obtain rfl : some n = result := by simpa using hresult
  rcases Bridge.Store.claimNotificationTx_spec htx with ⟨-, hnone⟩ | ⟨candidate, n', hmem, -, -, hpopulate, hsame⟩
  · cases hnone
  · obtain rfl := Option.some.inj hsame
    have hrow : candidate.toOutboxEvent ∈ db.events := List.mem_map_of_mem hmem
    exact ⟨OutboxRow.lease _ _ candidate, hrow, populate_reads hpopulate hversion⟩

/-! ## Where the calls come from -/

section Sources

variable {Fp : Type} [DecidableEq Fp] {set : Setting Fp} {s t : Link Fp} {e : Event Fp}
  {es : List (Event Fp)} {clock : Int} {time : Nat}

/-- A step that begins a call of `accept` only for a request of the bridge. -/
def Link.Signed (set : Setting Fp) (s : Link Fp) (e : Event Fp) (t : Link Fp) : Prop :=
  Link.Step set s e t ∧
    ∀ i, s.controller.calls i = none → t.controller.calls i ≠ none → ∃ j, e = .request j i

theorem Link.Step.signed_of_quiet (h : Link.Step set s e t) (hquiet : t.controller.calls = s.controller.calls) :
    Link.Signed set s e t :=
  ⟨h, fun i hidle hbusy => absurd ((congrFun hquiet i).trans hidle) hbusy⟩

theorem Link.Step.signed_of_request {j i : Nat} (h : Link.Step set s (.request j i) t) :
    Link.Signed set s (.request j i) t := by
  refine ⟨h, fun i' hidle hbusy => ⟨j, ?_⟩⟩
  cases h with
  | request =>
    by_cases hsame : i' = i
    · rw [hsame]
    · exact absurd ((Controller.Redis.System.setCall_of_ne _ _ hsame).trans hidle) hbusy

omit [DecidableEq Fp] in
/-- A notification with the values of the event, as the controller reads its body. -/
def Conveyed (set : Setting Fp) (e : OutboxEvent) (event : NotificationV2) : Prop :=
  ∃ n row body, row.toOutboxEvent = e ∧ Reads n row ∧ payloadBytes n = some body ∧ Tells n event ∧
    Controller.Intake.parsePayload set.policy (some (wireOf body)) = .ok event

/-- The notifications that the attempts and the calls are for. -/
structure Link.Sourced (set : Setting Fp) (s : Link Fp) : Prop where
  consistent : s.bridge.Consistent
  stored : Stored s.bridge
  attempts : ∀ a ∈ s.attempts, a.claimed.schemaVersion = 2 →
    ∃ row, row.toOutboxEvent ∈ s.bridge.history ∧ Reads a.claimed row
  calls : ∀ i event, CallFor s.controller i event → ∃ e ∈ s.bridge.history, Conveyed set e event

omit [DecidableEq Fp] in
theorem sourced_initial : (Link.initial clock time : Link Fp).Sourced set where
  consistent := Bridge.Store.consistent_initial clock
  stored := fun _ he => absurd he List.not_mem_nil
  attempts := fun _ ha => absurd ha List.not_mem_nil
  calls := fun _ _ ⟨_, _, hcall⟩ => nomatch hcall

/-- The bridge forgets no notification of its history. -/
theorem Link.Step.history_subset (h : Link.Step set s e t) : s.bridge.history ⊆ t.bridge.history := by
  rcases h.bridge with hsame | ⟨c, hmove⟩
  · rw [hsame]
    exact List.Subset.refl _
  · exact history_step hmove

/-- A call that is there before a step is for the same event after it. -/
theorem callFor_back (h : Link.Step set s e t) {i : Nat} {event : NotificationV2}
    (hold : s.controller.calls i ≠ none) (hcall : CallFor t.controller i event) :
    CallFor s.controller i event := by
  obtain ⟨⟨other, n, pc⟩, hother⟩ := Option.ne_none_iff_exists'.mp hold
  have hkept : CallFor t.controller i other := by
    rcases h.controller_step with ⟨-, hsame⟩ | ⟨l, -, hmove⟩
    · rw [hsame]
      exact ⟨n, pc, hother⟩
    · exact callFor_step hmove ⟨n, pc, hother⟩
  obtain ⟨n', pc', hnow⟩ := hcall
  obtain ⟨n'', pc'', hthen⟩ := hkept
  rw [hnow] at hthen
  obtain rfl := congrArg Controller.Redis.AcceptCall.event (Option.some.inj hthen)
  exact ⟨n, pc, hother⟩

omit [DecidableEq Fp] in
/-- The event of a request is conveyed from the row of its attempt. -/
theorem conveyed_of_request {a : Attempt} {body : Bridge.Notify.Body} {event : NotificationV2}
    {cond : Controller.Intake.Conditions} {envelope : Envelope} {row : OutboxRow}
    (hreads : Reads a.claimed row) (hbody : payloadBytes a.claimed = some body)
    (hadmitted : Controller.Intake.admitted set.http set.policy cond (requestOf envelope a.claimed body) =
      .ok event) : Conveyed set row.toOutboxEvent event :=
  ⟨a.claimed, row, body, rfl, hreads, hbody, event_of_request hbody hadmitted,
    Controller.Intake.admitted_parse hadmitted⟩

theorem sourced_step (h : s.Sourced set) (hsigned : Link.Signed set s e t) : t.Sourced set := by
  obtain ⟨hstep, hsignature⟩ := hsigned
  have hhistory := hstep.history_subset
  have hbridge : t.bridge.Consistent ∧ Stored t.bridge := by
    rcases hstep.bridge with hsame | ⟨c, hmove⟩
    · rw [hsame]
      exact ⟨h.consistent, h.stored⟩
    · exact ⟨(Bridge.Store.consistent_step h.consistent hmove).1, stored_step h.stored hmove⟩
  have hkept : ∀ a ∈ s.attempts, a.claimed.schemaVersion = 2 →
      ∃ row, row.toOutboxEvent ∈ t.bridge.history ∧ Reads a.claimed row := by
    intro a ha hversion
    obtain ⟨row, hrow, hreads⟩ := h.attempts a ha hversion
    exact ⟨row, hhistory hrow, hreads⟩
  refine ⟨hbridge.1, hbridge.2, ?_, ?_⟩
  · intro a ha hversion
    cases hstep with
    | store | controller => exact hkept a ha hversion
    | claim _ _ _ hmove hanswer =>
      rcases List.mem_append.mp ha with ha | ha
      · exact hkept a ha hversion
      · obtain rfl := List.mem_singleton.mp ha
        obtain ⟨row, hrow, hreads⟩ := reads_of_answer hversion hanswer
        exact ⟨row, hhistory (h.stored _ hrow), hreads⟩
    | @request _ _ a₀ _ _ _ _ hattempt | @finish _ a₀ _ _ _ _ hattempt =>
      rcases List.mem_or_eq_of_mem_set ha with ha | rfl
      · exact hkept a ha hversion
      · exact hkept a₀ (List.mem_of_getElem? hattempt) hversion
  · intro i event hcall
    by_cases hnew : s.controller.calls i = none
    · -- a call that begins with this step is the request of an attempt
      obtain ⟨j, rfl⟩ := hsignature i hnew (by
        obtain ⟨n, pc, hnow⟩ := hcall
        rw [hnow]
        nofun)
      cases hstep with
      | @request _ _ a body event' cond envelope hattempt _ hbody hadmitted _ =>
        obtain ⟨n, pc, hnow⟩ := hcall
        rw [Controller.Redis.System.setCall_self] at hnow
        obtain rfl := congrArg Controller.Redis.AcceptCall.event (Option.some.inj hnow)
        have hversion := (event_of_request hbody hadmitted).version
        obtain ⟨row, hrow, hreads⟩ := h.attempts a (List.mem_of_getElem? hattempt) hversion
        exact ⟨_, hrow, conveyed_of_request hreads hbody hadmitted⟩
    · obtain ⟨e, he, hconveyed⟩ := h.calls i event (callFor_back hstep hnew hcall)
      exact ⟨e, hhistory he, hconveyed⟩

/-! ## Acceptances -/

/-- An accepted event is that of a call. -/
theorem callFor_of_accepted {l : Controller.Redis.Label Fp} {c c' : Controller.Redis.System Fp}
    {chats : List String} {D : Controller.Redis.Discipline Fp} {fingerprint : NotificationV2 → Fp}
    (hstep : Controller.Redis.System.Step D chats fingerprint c l c') {chat : String} {event : NotificationV2}
    {fp : Fp} (h : Controller.Redis.Label.observation fingerprint l = some (chat, .accepted event fp)) :
    chat = event.canonicalChatJid ∧ ∃ i, CallFor c' i event := by
  cases hstep with
  | client hclient hop =>
    obtain ⟨⟨c, r⟩, rfl, hmap⟩ := Option.bind_eq_some_iff.mp h
    obtain ⟨o, hobserve, heq⟩ := Option.map_eq_some_iff.mp hmap
    obtain ⟨-, rfl⟩ := Prod.mk.inj heq
    refine absurd ?_ (hop c r rfl).1
    generalize c.op = op at hobserve
    unfold Controller.Redis.observe at hobserve
    split at hobserve
    all_goals cases hobserve
    trivial
  | append | start | absent | foreign | own | looked | flush | fail => cases h
  | snapshot | read => cases h
  | @submit i n other snapshot completed clk t r hcall =>
    obtain ⟨o, hobserve, heq⟩ := Option.map_eq_some_iff.mp h
    obtain ⟨rfl, rfl⟩ := Prod.mk.inj heq
    cases r with
    | accepted =>
      cases hobserve
      exact ⟨rfl, i, _, _, Controller.Redis.System.setCall_self ..⟩
    | _ => cases hobserve

/-- Every accepted event of a run is that of a call. -/
theorem callFor_of_observed {chats : List String} {D : Controller.Redis.Discipline Fp}
    {fingerprint : NotificationV2 → Fp} {c c' : Controller.Redis.System Fp}
    {ls : List (Controller.Redis.Label Fp)}
    (h : Exec (Controller.Redis.System.Step D chats fingerprint) c ls c') {chat : String}
    {event : NotificationV2} {fp : Fp} (hmem : (chat, .accepted event fp) ∈ observed fingerprint ls) :
    chat = event.canonicalChatJid ∧ ∃ i, CallFor c' i event := by
  induction h with
  | nil => cases hmem
  | @snoc ls c₁ c₂ l run last ih =>
    obtain ⟨l', hl', hobserved⟩ := List.mem_filterMap.mp hmem
    rcases List.mem_append.mp hl' with hl' | hl'
    · obtain ⟨hchat, i, hcall⟩ := ih (List.mem_filterMap.mpr ⟨l', hl', hobserved⟩)
      exact ⟨hchat, i, callFor_step last hcall⟩
    · obtain rfl := List.mem_singleton.mp hl'
      exact callFor_of_accepted last hobserved

/-! ## The order -/

/-- The ids of the events of the chat that the calls complete. -/
def completedIds (chat : String) (log : List (String × Observation Fp)) : List String :=
  log.filterMap fun
    | (other, .completed w) => if other = chat then some w.eventId else none
    | _ => none

/-- The notifications of the chat, in the order in which they were saved. -/
def notificationsOf (chat : String) (s : Bridge.Store.System) : List OutboxEvent :=
  s.history.filter fun e => e.canonicalChatJid = some chat

omit [DecidableEq Fp] in
theorem length_completedIds (chat : String) (log : List (String × Observation Fp)) :
    (completedIds chat log).length = completions chat log := by
  unfold completedIds completions
  rw [List.length_filterMap_eq_countP]
  congr 1
  funext o
  obtain ⟨other, o⟩ := o
  cases o with
  | completed w =>
    by_cases hchat : other = chat
    · simp [Controller.Redis.Observation.completedOn, hchat]
    · simp [Controller.Redis.Observation.completedOn, hchat]
  | _ => rfl

omit [DecidableEq Fp] in
theorem completedIds_concat_completed (chat : String) (log : List (String × Observation Fp))
    (w : Controller.Redis.WorkArgs Fp) :
    completedIds chat (log ++ [(chat, .completed w)]) = completedIds chat log ++ [w.eventId] := by
  simp [completedIds]

omit [DecidableEq Fp] in
theorem completedIds_concat_other {chat : String} {log : List (String × Observation Fp)}
    {o : String × Observation Fp} (h : ∀ w, o ≠ (chat, .completed w)) :
    completedIds chat (log ++ [o]) = completedIds chat log := by
  obtain ⟨other, o⟩ := o
  cases o with
  | completed w =>
    have hchat : other ≠ chat := fun heq => h w (by rw [heq])
    simp [completedIds, hchat]
  | _ => simp [completedIds]

/-- The notification with a number stands at its place. -/
theorem notificationsOf_getElem {b : Bridge.Store.System} (h : b.Consistent) {chat : String} {k : Nat}
    {e : OutboxEvent} (he : e ∈ b.history) (hchat : e.canonicalChatJid = some chat)
    (hsequence : e.chatSequence = some (k + 1)) : (notificationsOf chat b)[k]? = some e := by
  have hmem : e ∈ notificationsOf chat b := List.mem_filter.mpr ⟨he, decide_eq_true hchat⟩
  obtain ⟨j, hj, heq⟩ := List.getElem_of_mem hmem
  have hnumbers := congrArg (fun numbers => numbers[j]?) (h.numbered chat)
  have hlength : (notificationsOf chat b).length = b.db.lastSequence chat := by
    have hboth := congrArg List.length (h.numbered chat)
    simpa [notificationsOf] using hboth
  have hthere : (notificationsOf chat b)[j]? = some e := by
    rw [List.getElem?_eq_getElem hj, heq]
  have hnumber : ((notificationsOf chat b).map OutboxEvent.chatSequence)[j]? = some (some (k + 1)) := by
    rw [List.getElem?_map, hthere, Option.map_some, hsequence]
  have hrange : ((List.range' 1 (b.db.lastSequence chat)).map some)[j]? = some (some (1 + j)) := by
    rw [List.getElem?_map, List.getElem?_range' (hlength ▸ hj), Option.map_some, Nat.one_mul]
  have hplace : k = j := by
    have hsame := hnumber.symm.trans (hnumbers.trans hrange)
    simp only [Option.some.injEq] at hsame
    omega
  rw [hplace, hthere]

/-! ## Runs -/

theorem exec_unsigned (h : Exec (Link.Signed set) (Link.initial clock time) es s) :
    Exec (Link.Step set) (Link.initial clock time) es s :=
  h.mono (P := fun _ => True) trivial fun _ _ _ _ hstep => ⟨trivial, hstep.1⟩

/-- The event that a chat completes next is conveyed from its notification with the next number. -/
theorem conveyed_of_completed (h : Exec (Link.Signed set) (Link.initial clock time) es s) {chat : String}
    {w : Controller.Redis.WorkArgs Fp} {pre post : List (String × Observation Fp)}
    (hsplit : observed set.fingerprint (es.filterMap Event.label) = pre ++ (chat, .completed w) :: post) :
    ∃ e event, (notificationsOf chat s.bridge)[completions chat pre]? = some e ∧ e.eventId = w.eventId ∧
      Conveyed set e event := by
  have hsourced : s.Sourced set := h.invariant sourced_initial fun _ _ _ => sourced_step
  have hrun := exec_controller (exec_unsigned h)
  obtain ⟨⟨event, haccepted, hid, hnumber⟩, -⟩ := Controller.Redis.completions_in_order
    (Controller.Redis.markers_complete hrun) pre chat w post hsplit
  have hmem : (chat, .accepted event w.fingerprint) ∈ observed set.fingerprint (es.filterMap Event.label) :=
    hsplit ▸ List.mem_append_left _ haccepted
  obtain ⟨hchat, i, hcall⟩ := callFor_of_observed hrun hmem
  obtain ⟨e, he, hconveyed⟩ := hsourced.calls i event hcall
  obtain ⟨n, row, body, hrow, hreads, -, htells, -⟩ := id hconveyed
  have hcanonical : e.canonicalChatJid = some chat := by
    rw [← hrow, hreads.canonicalChatJid, hchat, htells.canonicalChatJid]
  have hsequence : e.chatSequence = some (completions chat pre + 1) := by
    rw [← hrow, hreads.chatSequence, ← htells.chatSequence, hnumber]
  have hsame : e.eventId = w.eventId := by
    rw [← hrow, ← hreads.eventId, ← htells.eventId, hid]
  exact ⟨e, event, notificationsOf_getElem hsourced.consistent he hcanonical hsequence, hsame, hconveyed⟩

/-- In every run, the completed events of a chat are its first notifications, in the order in which
the bridge saved them. -/
theorem completed_prefix (h : Exec (Link.Signed set) (Link.initial clock time) es s) (chat : String) :
    completedIds chat (observed set.fingerprint (es.filterMap Event.label)) <+:
      (notificationsOf chat s.bridge).map OutboxEvent.eventId := by
  -- along the log: what is completed so far is a prefix
  suffices ∀ pre post, observed set.fingerprint (es.filterMap Event.label) = pre ++ post →
      completedIds chat pre <+: (notificationsOf chat s.bridge).map OutboxEvent.eventId from
    this _ [] (List.append_nil _).symm
  intro pre
  induction pre using List.reverseRecOn with
  | nil => exact fun _ _ => List.nil_prefix
  | append_singleton pre o ih =>
    intro post hsplit
    rw [List.append_assoc, List.singleton_append] at hsplit
    have hbefore := ih (o :: post) hsplit
    by_cases hcompleted : ∃ w, o = (chat, .completed w)
    · obtain ⟨w, rfl⟩ := hcompleted
      obtain ⟨e, -, hplace, hid, -⟩ := conveyed_of_completed h hsplit
      rw [completedIds_concat_completed]
      obtain ⟨rest, hrest⟩ := hbefore
      have hnext : rest[0]? = some w.eventId := by
        have hthere : ((notificationsOf chat s.bridge).map OutboxEvent.eventId)[completions chat pre]? =
            some w.eventId := by
          rw [List.getElem?_map, hplace, Option.map_some, hid]
        rw [← hrest, ← length_completedIds, List.getElem?_append_right (Nat.le_refl _), Nat.sub_self] at hthere
        exact hthere
      cases rest with
      | nil => cases hnext
      | cons id rest =>
        obtain rfl := Option.some.inj hnext
        exact ⟨rest, by rw [List.append_assoc, List.singleton_append, hrest]⟩
    · rw [completedIds_concat_other fun w hw => hcompleted ⟨w, hw⟩]
      exact hbefore

/-- A notification that no request can carry is never completed, and neither is any later one of its
chat. -/
theorem stalled_of_undeliverable (h : Exec (Link.Signed set) (Link.initial clock time) es s) {chat : String}
    {e : OutboxEvent} {k : Nat} (he : e ∈ s.bridge.history) (hchat : e.canonicalChatJid = some chat)
    (hsequence : e.chatSequence = some (k + 1)) (hundeliverable : ∀ event, ¬ Conveyed set e event) :
    completions chat (observed set.fingerprint (es.filterMap Event.label)) ≤ k := by
  have hsourced : s.Sourced set := h.invariant sourced_initial fun _ _ _ => sourced_step
  have hplace := notificationsOf_getElem hsourced.consistent he hchat hsequence
  -- along the log: the number of the notification is never passed
  suffices ∀ pre post, observed set.fingerprint (es.filterMap Event.label) = pre ++ post →
      completions chat pre ≤ k from this _ [] (List.append_nil _).symm
  intro pre
  induction pre using List.reverseRecOn with
  | nil => exact fun _ _ => Nat.zero_le k
  | append_singleton pre o ih =>
    intro post hsplit
    rw [List.append_assoc, List.singleton_append] at hsplit
    have hbefore := ih (o :: post) hsplit
    by_cases hcompleted : ∃ w, o = (chat, .completed w)
    · obtain ⟨w, rfl⟩ := hcompleted
      obtain ⟨e', event, hplace', -, hconveyed⟩ := conveyed_of_completed h hsplit
      have hne : completions chat pre ≠ k := by
        intro heq
        rw [heq, hplace] at hplace'
        obtain rfl := Option.some.inj hplace'
        exact hundeliverable event hconveyed
      rw [← length_completedIds, completedIds_concat_completed, List.length_append, length_completedIds]
      simp only [List.length_cons, List.length_nil]
      omega
    · rw [← length_completedIds, completedIds_concat_other fun w hw => hcompleted ⟨w, hw⟩,
        length_completedIds]
      exact hbefore

omit [DecidableEq Fp] in
/-- No request carries a message id of more than 512 bytes. -/
theorem not_conveyed_of_long {e : OutboxEvent} (h : 512 < e.messageId.utf8ByteSize) (event : NotificationV2) :
    ¬ Conveyed set e event := by
  rintro ⟨n, row, body, rfl, hreads, hbody, -⟩
  have hlong : 512 < n.messageId.utf8ByteSize := hreads.messageId ▸ h
  unfold payloadBytes at hbody
  rw [if_pos] at hbody
  · cases hbody
  · simp [hlong]

end Sources

/-! ## Sample runs -/

/-- A run of the controller that begins no call, beside a bridge that rests. -/
theorem exec_signed_of_controller {Fp : Type} [DecidableEq Fp] {set : Setting Fp} {s₀ s : Link Fp}
    {es : List (Event Fp)} {ls : List (Controller.Redis.Label Fp)} {c c' : Controller.Redis.System Fp}
    (hrun : Exec (Controller.Redis.System.Step .durable set.policy.configuredChats set.fingerprint) c ls c')
    (h : Exec (Link.Signed set) s₀ es s) (hc : s.controller = c)
    (hquiet : ∀ i, c.calls i = none → c'.calls i = none) :
    Exec (Link.Signed set) s₀ (es ++ ls.map Event.controller) { s with controller := c' } := by
  have hkept : ∀ {a b : Controller.Redis.System Fp} {l : Controller.Redis.Label Fp} {i : Nat},
      Controller.Redis.System.Step .durable set.policy.configuredChats set.fingerprint a l b →
        b.calls i = none → a.calls i = none := by
    intro a b l i hstep hnone
    by_contra hsome
    obtain ⟨⟨event, n, pc⟩, hcall⟩ := Option.ne_none_iff_exists'.mp hsome
    obtain ⟨n', pc', hstill⟩ := callFor_step hstep ⟨n, pc, hcall⟩
    rw [hnone] at hstill
    cases hstill
  subst hc
  induction hrun with
  | nil => simpa using h
  | @snoc ls t u l run last ih =>
    have hfirst := ih fun i hi => hkept last (hquiet i hi)
    rw [List.map_append, ← List.append_assoc]
    refine hfirst.snoc ⟨.controller last, fun i hidle hbusy => absurd (hquiet i ?_) hbusy⟩
    exact run.invariant (P := fun t => t.calls i = none → s.controller.calls i = none) id
      (fun a l b ha hstep hb => ha (hkept hstep hb)) hidle

def sampleWork : Controller.Redis.WorkArgs NotificationV2 :=
  ⟨"app", "1", "worker", "1", sampleEvent.eventId, ⟨2, 0⟩, sampleEvent⟩

def sampleSession : Controller.SessionBinding := ⟨"15@lid", "session-1", "session-1.jsonl"⟩

def sampleMarker : Controller.CompletionProof NotificationV2 where
  eventId := sampleEvent.eventId
  eventFingerprint := sampleEvent
  canonicalChatId := "15@lid"
  chatSequence := 1
  confirmedSends := []
  entryId := "entry-1"
  session := sampleSession

/-- The controller accepts the event, claims it and completes it. -/
theorem sampleController_completes : ∃ ls c,
    Exec (Controller.Redis.System.Step .durable ["15@lid"] id)
      (sampleController.setCall 0 ⟨sampleEvent, 0, .snapshot⟩) ls c ∧
      (∀ i, (sampleController.setCall 0 ⟨sampleEvent, 0, .snapshot⟩).calls i = none → c.calls i = none) ∧
      completedIds "15@lid" (observed id ls) = [sampleEvent.eventId] := by
  have h₀ : Exec (Controller.Redis.System.Step .durable ["15@lid"] id)
      (sampleController.setCall 0 ⟨sampleEvent, 0, .snapshot⟩) []
      (sampleController.setCall 0 ⟨sampleEvent, 0, .snapshot⟩) := .nil
  have h₁ := Controller.Redis.exec_called sampleEvent h₀ 0 2 (Controller.Redis.System.setCall_self ..)
    (by decide) (fun u since hu m hm => absurd (hu ▸ List.mem_of_mem_take hm) List.not_mem_nil) rfl
  have h₂ := Controller.Redis.exec_client h₁ "15@lid" 3 (.appAcquire "app" 100)
    ⟨List.mem_singleton.mpr rfl, trivial⟩ (by decide) ⟨id, trivial⟩
  have h₃ := Controller.Redis.exec_client h₂ "15@lid" 4 (.claim ⟨"app", "1", "worker", 50, 10⟩)
    ⟨List.mem_singleton.mpr rfl, trivial⟩ (by decide) ⟨id, trivial⟩
  have h₄ := Controller.Redis.exec_client h₃ "15@lid" 5 (.bind sampleWork sampleSession)
    ⟨List.mem_singleton.mpr rfl, trivial⟩ (by decide) ⟨id, trivial⟩
  have h₅ := Controller.Redis.exec_client (h₄.snoc (.append sampleMarker)) "15@lid" 6
    (.complete sampleWork sampleSession []) ⟨List.mem_singleton.mpr rfl, trivial⟩ (by decide)
    ⟨id, sampleMarker, List.mem_singleton.mpr rfl, ⟨rfl, rfl, rfl⟩, rfl, rfl, rfl⟩
  refine ⟨_, _, h₅, fun i hi => ?_, rfl⟩
  have hi' : i ≠ 0 := by
    rintro rfl
    rw [Controller.Redis.System.setCall_self] at hi
    cases hi
  exact (Function.update_of_ne hi' _ _).trans hi

/-- The message of the chat is saved and its notification claimed, beside the controller. -/
theorem sampleClaimed : ∃ es, Exec (Link.Signed sampleSetting) (Link.initial 0 0) es
    ⟨sampleBridge, sampleController, [⟨sampleNotification, Bridge.Notify.sampleConfig,
      Bridge.Notify.sampleAttempt.before, [], false⟩]⟩ ∧
    completedIds "15@lid" (observed id (es.filterMap Event.label)) = [] := by
  have hchat : Link.Step sampleSetting (Link.initial 0 0) (.store _) ⟨Bridge.Store.sampleChat, .empty 0, []⟩ :=
    .store (Bridge.Store.sampleStep _ _ _ _ (by decide) (by decide)) fun _ _ h => by cases h
  have hsaved : Link.Step sampleSetting ⟨Bridge.Store.sampleChat, .empty 0, []⟩ (.store _)
      ⟨Bridge.Store.sampleChat.after (Bridge.Store.sampleLive 20 1), .empty 0, []⟩ :=
    .store (Bridge.Store.sampleStep _ _ _ _ (by decide) (by decide)) fun _ _ h => by cases h
  have hclaimed : Link.Step sampleSetting
      ⟨Bridge.Store.sampleChat.after (Bridge.Store.sampleLive 20 1), .empty 0, []⟩ (.claim sampleClaim)
      ⟨sampleBridge, .empty 0, [⟨sampleNotification, Bridge.Notify.sampleConfig,
        Bridge.Notify.sampleAttempt.before, [], false⟩]⟩ :=
    .claim _ _ rfl (Bridge.Store.sampleStep _ _ _ _ (by decide) (by decide)) (by decide +kernel)
  have hchats : sampleSetting.policy.configuredChats = ["15@lid"] := by decide
  have hinit : Exec (Controller.Redis.System.Step .durable ["15@lid"] id) (.empty 0) _ sampleController :=
    Controller.Redis.exec_client .nil "15@lid" 1 (.init "15@lid") ⟨List.mem_singleton.mpr rfl, trivial⟩
      (by decide) ⟨id, trivial⟩
  rw [← hchats] at hinit
  exact ⟨_, exec_signed_of_controller hinit
    (((Exec.single (hchat.signed_of_quiet rfl)).snoc (hsaved.signed_of_quiet rfl)).snoc
      (hclaimed.signed_of_quiet rfl)) rfl fun _ hnone => hnone, rfl⟩

/-- The notification is taken in, and its event is completed. -/
theorem sampleTurn : ∃ es s, Exec (Link.Signed sampleSetting) (Link.initial 0 0) es s ∧
    completedIds "15@lid" (observed sampleSetting.fingerprint (es.filterMap Event.label)) =
      [sampleEvent.eventId] := by
  obtain ⟨body, hbody, hadmitted⟩ := payloadBytes_sample
  obtain ⟨es, hready, hnothing⟩ := sampleClaimed
  have hchats : sampleSetting.policy.configuredChats = ["15@lid"] := by decide
  have hrequest := hready.snoc (Link.Step.signed_of_request (.request (j := 0) (i := 0) sampleConditions
    sampleEnvelope rfl ⟨by decide, by decide⟩ hbody hadmitted rfl))
  obtain ⟨ls, c, hrun, hquiet, hcompleted⟩ := sampleController_completes
  rw [← hchats] at hrun
  refine ⟨_, _, exec_signed_of_controller hrun hrequest rfl hquiet, ?_⟩
  have hlabels : (ls.map fun l => (Event.controller l : Event NotificationV2)).filterMap Event.label = ls := by
    rw [List.filterMap_map]
    exact List.filterMap_some
  rw [List.filterMap_append, List.filterMap_append, hlabels, observed, List.filterMap_append,
    List.filterMap_append, completedIds, List.filterMap_append, List.filterMap_append]
  exact congrArg₂ (· ++ ·) (congrArg₂ (· ++ ·) hnothing rfl) hcompleted

/-- The completed events of the sample run are a prefix of the notifications of its chat. -/
theorem completed_prefix_of_sampleTurn : ∃ es s, Exec (Link.Signed sampleSetting) (Link.initial 0 0) es s ∧
    completedIds "15@lid" (observed sampleSetting.fingerprint (es.filterMap Event.label)) =
      [sampleEvent.eventId] ∧
    completedIds "15@lid" (observed sampleSetting.fingerprint (es.filterMap Event.label)) <+:
      (notificationsOf "15@lid" s.bridge).map OutboxEvent.eventId := by
  obtain ⟨es, s, hrun, hcompleted⟩ := sampleTurn
  exact ⟨es, s, hrun, hcompleted, completed_prefix hrun "15@lid"⟩

/-- A message whose id is too long to be sent. -/
def sampleLongId : String := String.ofList (List.replicate 513 'a')

def sampleLong : Bridge.Store.Call :=
  Bridge.Store.sampleCall
    (.saveMessage (some { Bridge.Store.sampleMessage with id := sampleLongId, isFromMe := false })
      (some { Bridge.Store.sampleRequest with isFromMe := false })) 20 1

/-- Its notification is the first of its chat, and nothing of the chat is completed. -/
theorem stalled_of_sampleLong : ∃ es s, Exec (Link.Signed sampleSetting) (Link.initial 0 0) es s ∧
    (notificationsOf "15@lid" s.bridge).map OutboxEvent.messageId = [sampleLongId] ∧
    completions "15@lid" (observed sampleSetting.fingerprint (es.filterMap Event.label)) ≤ 0 := by
  have hchat : Link.Step sampleSetting (Link.initial 0 0) (.store _) ⟨Bridge.Store.sampleChat, .empty 0, []⟩ :=
    .store (Bridge.Store.sampleStep _ _ _ _ (by decide) (by decide)) fun _ _ h => by cases h
  have hsaved : Link.Step sampleSetting ⟨Bridge.Store.sampleChat, .empty 0, []⟩ (.store sampleLong)
      ⟨Bridge.Store.sampleChat.after sampleLong, .empty 0, []⟩ :=
    .store (Bridge.Store.sampleStep _ _ _ _ (by decide) (by decide)) fun _ _ h => by cases h
  have hnotifications : (notificationsOf "15@lid" (Bridge.Store.sampleChat.after sampleLong)).map
      (fun e => (e.messageId, e.canonicalChatJid, e.chatSequence)) =
        [(sampleLongId, some "15@lid", some 1)] := by
    decide +kernel
  obtain ⟨e, hall, he⟩ := List.map_eq_singleton_iff.mp hnotifications
  simp only [Prod.mk.injEq] at he
  obtain ⟨hid, hcanonical, hsequence⟩ := he
  have hmem : e ∈ (Bridge.Store.sampleChat.after sampleLong).history :=
    List.mem_of_mem_filter (hall ▸ List.mem_singleton_self e)
  have hlong : 512 < e.messageId.utf8ByteSize := by
    rw [hid]
    decide +kernel
  have hrun : Exec (Link.Signed sampleSetting) (Link.initial 0 0) _ _ :=
    (Exec.single (hchat.signed_of_quiet rfl)).snoc (hsaved.signed_of_quiet rfl)
  exact ⟨_, _, hrun, by rw [hall, List.map_singleton, hid],
    stalled_of_undeliverable hrun hmem hcanonical hsequence (not_conveyed_of_long hlong)⟩

end WhatsAppMcp.Delivery
