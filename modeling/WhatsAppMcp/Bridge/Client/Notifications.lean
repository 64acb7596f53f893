import WhatsAppMcp.Bridge.Client.Events

/-!
# Which messages are notified

`bridge/client/notifications.go`: the policy that `WithIncomingNotifications` makes of a
configuration, and `candidate`, which decides about one message.

`types.JID` is not part of this repository; `JidOps` is what the policy uses of it.  A Go map
whose values are all `true` is the list of its keys.

* `withIncomingNotifications_spec`: what an enabled policy has of its configuration.
* `candidate_spec`: what the policy has checked of a message that it admits.
-/

namespace WhatsAppMcp.Bridge.Client

open Store

/-! ## Identities -/

/-- `String`, `ToNonAD` and `IsEmpty` of `types.JID`. -/
structure JidOps where
  Jid : Type
  text : Jid → String
  toNonAD : Jid → Jid
  isEmpty : Jid → Bool

/-- `normalizedNotificationJID`. -/
def normalizedNotificationJid (J : JidOps) (jid : J.Jid) : String :=
  if J.isEmpty jid then "" else J.text (J.toNonAD jid)

/-- No identity is one of a group and a private one. -/
theorem not_private_of_group {jid : String} (h : isGroupJid jid = true) : isPrivateJid jid = false := by
  unfold isGroupJid matchesJid at h
  simp only [List.any_cons, List.any_nil, Bool.or_false, Bool.and_eq_true, beq_iff_eq] at h
  unfold isPrivateJid matchesJid
  rw [h.2]
  simp

theorem ne_empty_of_jid {servers : List String} {jid : String} (h : matchesJid servers jid = true) :
    jid ≠ "" := by
  rintro rfl
  simp [matchesJid] at h

/-! ## The policy -/

/-- `notificationPolicy`. -/
structure NotificationPolicy where
  groups : List String
  operators : List String
  canonicalOperator : String
  maxAge : Int

/-- `notificationPolicy{}`. -/
def NotificationPolicy.disabled : NotificationPolicy := ⟨[], [], "", 0⟩

/-- The loop over the allowed identities. -/
def NotificationPolicy.add (policy : NotificationPolicy) : List String → Option NotificationPolicy
  | [] => some policy
  | jid :: rest =>
    if isGroupJid jid then { policy with groups := jid :: policy.groups }.add rest
    else if isPrivateJid jid then
      NotificationPolicy.add { policy with
        operators := jid :: policy.operators
        canonicalOperator := if policy.canonicalOperator = "" then jid else policy.canonicalOperator } rest
    else none

/-- `WithIncomingNotifications`. -/
def withIncomingNotifications (allowed : List String) (maxAge : Int) : NotificationPolicy :=
  if maxAge ≤ 0 ∨ maxAge > week then .disabled
  else
    match NotificationPolicy.add ⟨[], [], "", maxAge⟩ allowed with
    | none => .disabled
    | some policy => if policy.groups = [] ∨ policy.operators = [] then .disabled else policy

/-- What the loop has of the identities that it went through. -/
structure NotificationPolicy.From (policy start : NotificationPolicy) (allowed : List String) : Prop where
  groups : ∀ jid ∈ policy.groups, jid ∈ start.groups ∨ jid ∈ allowed.filter isGroupJid
  operators : ∀ jid ∈ policy.operators, jid ∈ start.operators ∨ jid ∈ allowed.filter isPrivateJid
  canonicalOperator : policy.canonicalOperator =
    if start.canonicalOperator = "" then (allowed.filter isPrivateJid).head?.getD ""
    else start.canonicalOperator

theorem NotificationPolicy.add_from {policy start : NotificationPolicy} {allowed : List String}
    (h : start.add allowed = some policy) : policy.From start allowed := by
  induction allowed generalizing start with
  | nil =>
    obtain rfl := Option.some.inj h
    refine ⟨fun _ => Or.inl, fun _ => Or.inl, ?_⟩
    split
    · assumption
    · rfl
  | cons jid rest ih =>
    unfold NotificationPolicy.add at h
    split at h
    · next hgroup =>
      obtain ⟨hgroups, hoperators, hcanonical⟩ := ih h
      have hmine : (jid :: rest).filter isGroupJid = jid :: rest.filter isGroupJid :=
        List.filter_cons_of_pos hgroup
      have hothers : (jid :: rest).filter isPrivateJid = rest.filter isPrivateJid :=
        List.filter_cons_of_neg (by simp [not_private_of_group hgroup])
      refine ⟨fun j hj => ?_, hothers ▸ hoperators, hothers ▸ hcanonical⟩
      rw [hmine]
      rcases hgroups j hj with hj | hj
      · rcases List.mem_cons.mp hj with rfl | hj
        · exact Or.inr List.mem_cons_self
        · exact Or.inl hj
      · exact Or.inr (List.mem_cons_of_mem _ hj)
    · next hgroup =>
      split at h
      · next hprivate =>
        obtain ⟨hgroups, hoperators, hcanonical⟩ := ih h
        have hmine : (jid :: rest).filter isPrivateJid = jid :: rest.filter isPrivateJid :=
          List.filter_cons_of_pos hprivate
        have hothers : (jid :: rest).filter isGroupJid = rest.filter isGroupJid :=
          List.filter_cons_of_neg hgroup
        refine ⟨hothers ▸ hgroups, fun j hj => ?_, ?_⟩
        · rw [hmine]
          rcases hoperators j hj with hj | hj
          · rcases List.mem_cons.mp hj with rfl | hj
            · exact Or.inr List.mem_cons_self
            · exact Or.inl hj
          · exact Or.inr (List.mem_cons_of_mem _ hj)
        · rw [hcanonical, hmine]
          dsimp only
          by_cases hfirst : start.canonicalOperator = ""
          · rw [if_pos hfirst, if_neg (ne_empty_of_jid hprivate), if_pos hfirst]
            rfl
          · rw [if_neg hfirst, if_neg hfirst, if_neg hfirst]
      · cases h

/-- What a policy admits is allowed by its configuration, and the canonical operator is the first
private identity of it. -/
theorem withIncomingNotifications_spec (allowed : List String) (maxAge : Int) :
    let policy := withIncomingNotifications allowed maxAge
    (∀ jid ∈ policy.groups, jid ∈ allowed.filter isGroupJid) ∧
      (∀ jid ∈ policy.operators, jid ∈ allowed.filter isPrivateJid ∧
        policy.canonicalOperator = (allowed.filter isPrivateJid).head?.getD "") := by
  unfold withIncomingNotifications
  split
  · exact ⟨nofun, nofun⟩
  split
  · exact ⟨nofun, nofun⟩
  · next policy hpolicy =>
    split
    · exact ⟨nofun, nofun⟩
    · obtain ⟨hgroups, hoperators, hcanonical⟩ := NotificationPolicy.add_from hpolicy
      refine ⟨fun jid hjid => (hgroups jid hjid).resolve_left List.not_mem_nil, fun jid hjid => ⟨?_, ?_⟩⟩
      · exact (hoperators jid hjid).resolve_left List.not_mem_nil
      · rw [hcanonical, if_pos rfl]

/-! ## The candidate -/

/-- `events.Message` with what `candidate` reads of it beside the handler. -/
structure IncomingMessage (J : JidOps) where
  event : MessageEvent
  isEdit : Bool
  /-- `Info.Edit`; the empty text is `EditAttributeEmpty`. -/
  edit : String
  /-- `SourceWebMsg != nil`. -/
  sourceWebMsg : Bool
  unavailableRequestId : String
  chat : J.Jid
  sender : J.Jid
  senderAlt : J.Jid
  recipientAlt : J.Jid
  chatJid : event.chatJid = J.text chat
  senderJid : event.sender = J.text sender

variable {J : JidOps}

/-- `candidate`. -/
def NotificationPolicy.candidate (p : NotificationPolicy) (evt : IncomingMessage J) (receivedAt : Int) :
    Option NotificationRequest :=
  if evt.isEdit || evt.edit ≠ "" || evt.sourceWebMsg || evt.unavailableRequestId ≠ "" ||
      evt.event.message.isNone || evt.event.id = "" || evt.event.timestamp = zeroTime ||
      receivedAt = zeroTime || p.maxAge ≤ 0 || p.maxAge > week then
    none
  else
    let actualChatJid := J.text evt.chat
    let senderJid := normalizedNotificationJid J evt.sender
    let senderAltJid := normalizedNotificationJid J evt.senderAlt
    if !isParticipantJid senderJid || (senderAltJid ≠ "" && !isParticipantJid senderAltJid) then none
    else
      let request : NotificationRequest :=
        { receivedAt := receivedAt, maxAge := p.maxAge, canonicalChatJid := "", senderJid := senderJid
          senderAltJid := senderAltJid, chatKind := "", isFromMe := evt.event.isFromMe }
      if actualChatJid ∈ p.groups then
        some { request with canonicalChatJid := actualChatJid, chatKind := "group" }
      else if actualChatJid ∉ p.operators then none
      else
        let recipientAltJid := normalizedNotificationJid J evt.recipientAlt
        if evt.event.isFromMe then
          if recipientAltJid ≠ "" && recipientAltJid ∉ p.operators then none
          else some { request with canonicalChatJid := p.canonicalOperator, chatKind := "operator_private" }
        else if senderJid ∉ p.operators || (senderAltJid ≠ "" && senderAltJid ∉ p.operators) then none
        else some { request with canonicalChatJid := p.canonicalOperator, chatKind := "operator_private" }

/-- The request is for a group of the policy. -/
structure NotificationPolicy.ForGroup (p : NotificationPolicy) (chatJid : String)
    (request : NotificationRequest) : Prop where
  kind : request.chatKind = "group"
  chat : chatJid ∈ p.groups
  canonical : request.canonicalChatJid = chatJid

/-- The request is for the chat of an operator of the policy, who also sent the message unless the
account itself did. -/
structure NotificationPolicy.ForOperator (p : NotificationPolicy) (chatJid : String)
    (request : NotificationRequest) : Prop where
  kind : request.chatKind = "operator_private"
  chat : chatJid ∈ p.operators
  canonical : request.canonicalChatJid = p.canonicalOperator
  sender : request.isFromMe = false → request.senderJid ∈ p.operators ∧
    (request.senderAltJid ≠ "" → request.senderAltJid ∈ p.operators)

theorem candidate_spec {p : NotificationPolicy} {evt : IncomingMessage J} {receivedAt : Int}
    {request : NotificationRequest} (h : p.candidate evt receivedAt = some request) :
    request.receivedAt = receivedAt ∧
      (p.ForGroup evt.event.chatJid request ∨ p.ForOperator evt.event.chatJid request) := by
  unfold NotificationPolicy.candidate at h
  rw [← evt.chatJid] at h
  split at h
  · cases h
  dsimp only at h
  split at h
  · cases h
  split at h
  · next hgroup =>
    obtain rfl := Option.some.inj h
    exact ⟨rfl, Or.inl ⟨rfl, hgroup, rfl⟩⟩
  · split at h
    · cases h
    · next hoperator =>
      rw [not_not] at hoperator
      split at h
      · next hfrom =>
        split at h
        · cases h
        · obtain rfl := Option.some.inj h
          refine ⟨rfl, Or.inr ⟨rfl, hoperator, rfl, fun hnot => ?_⟩⟩
          have hfalse : evt.event.isFromMe = false := hnot
          rw [hfalse] at hfrom
          cases hfrom
      · split at h
        · cases h
        · next hsender =>
          simp only [Bool.or_eq_true, Bool.and_eq_true, decide_eq_true_eq, not_or, not_and, not_not] at hsender
          obtain rfl := Option.some.inj h
          exact ⟨rfl, Or.inr ⟨rfl, hoperator, rfl, fun _ => hsender⟩⟩

end WhatsAppMcp.Bridge.Client
