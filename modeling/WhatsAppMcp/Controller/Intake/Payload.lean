import WhatsAppMcp.Controller.Schemas

/-!
# The payload of a delivery

`intake/payload.ts`: the checks on the body of a request, in the order of the
source.  A body is the value that `JSON.parse` returns, with the fields that a
notification can have; `none` stands for a body that is not JSON.

* `checkedNotification` is `checked` with `NotificationV2Schema`.
* `validTimestamp` looks at the numbers of a text that `TimestampSchema` admits.
* `parsePayload` adds the policy.
-/

namespace WhatsAppMcp.Controller.Intake

/-- A decoded body.  A field that an object may lack is an `Option`. -/
structure Wire where
  schemaVersion : Nat
  eventType : String
  eventId : String
  chatJid : String
  canonicalChatJid : Option String
  messageId : String
  eventTimestamp : String
  receivedAt : String
  chatSequence : Option Nat
  senderJid : Option String
  senderAltJid : Option String
  chatKind : Option String
  isFromMe : Option Bool
  deriving DecidableEq, Repr

/-! ## The schema -/

/-- `eventFields`. -/
def Wire.eventFields (w : Wire) : Bool :=
  w.schemaVersion = 2 && w.eventType = "whatsapp.message.received" && Bridge.isOpaqueId w.eventId &&
    messageIdSchema w.messageId && timestampSchema w.eventTimestamp &&
    timestampSchema w.receivedAt && w.chatSequence.any (fun n => 1 ≤ n && n ≤ maxSafeInteger) &&
    w.senderJid.any participantJidSchema && w.senderAltJid.all participantJidSchema &&
    w.isFromMe.isSome

/-- The first alternative of `NotificationV2Schema`. -/
def Wire.groupFields (w : Wire) : Bool :=
  w.chatKind = some "group" && groupJidSchema w.chatJid && w.canonicalChatJid.any groupJidSchema

/-- The second alternative of `NotificationV2Schema`. -/
def Wire.privateFields (w : Wire) : Bool :=
  w.chatKind = some "operator_private" && privateJidSchema w.chatJid &&
    w.canonicalChatJid.any privateJidSchema

/-- `NotificationV2Schema`. -/
def Wire.notificationV2Schema (w : Wire) : Bool :=
  w.eventFields && (w.groupFields || w.privateFields)

/-- `checked(NotificationV2Schema, value, 'payload_invalid')`. -/
def checkedNotification (w : Wire) : Except ErrorClass NotificationV2 :=
  if w.notificationV2Schema then
    match w.chatSequence, w.senderJid, w.isFromMe, w.canonicalChatJid with
    | some (sequence + 1), some sender, some fromMe, some canonical =>
      .ok {
        eventId := w.eventId
        messageId := w.messageId
        eventTimestamp := w.eventTimestamp
        receivedAt := w.receivedAt
        chatSequence := sequence + 1
        senderJid := sender
        senderAltJid := w.senderAltJid
        isFromMe := fromMe
        chatKind := if w.chatKind = some "group" then .group else .operatorPrivate
        chatJid := w.chatJid
        canonicalChatJid := canonical
        chatSequence_pos := Nat.le_add_left 1 sequence }
    | _, _, _, _ => .error .payloadInvalid
  else .error .payloadInvalid

/-! ## Timestamps -/

/-- `Number` of the digits at a place of a text. -/
def numberAt (text : List Char) (start length : Nat) : Nat :=
  Nat.ofDigitChars 10 ((text.drop start).take length) 0

/-- The leap years of `validTimestamp`. -/
def leapYear (year : Nat) : Bool := year % 4 = 0 && (year % 100 ≠ 0 || year % 400 = 0)

/-- `days[month - 1] ?? 0`. -/
def daysInMonth (year month : Nat) : Nat :=
  [31, if leapYear year then 29 else 28, 31, 30, 31, 30, 31, 31, 30, 31, 30, 31].getD (month - 1) 0

/-- The check of `validTimestamp` on the zone. -/
def validZone (zone : List Char) : Bool :=
  zone = ['Z'] || (numberAt zone 1 2 < 24 && numberAt zone 4 2 < 60)

/-- `validTimestamp`, on the characters. -/
def validTimestampChars (text : List Char) : Bool :=
  match (afterPlaces dateTimePlaces text).map afterFraction with
  | none => false
  | some zone =>
    (zone = ['Z'] ||
        afterPlaces [.among ['+', '-'], .digit, .digit, .among [':'], .digit, .digit] zone = some []) &&
      let year := numberAt text 0 4
      let month := numberAt text 5 2
      let day := numberAt text 8 2
      year > 0 && month ≥ 1 && month ≤ 12 && day ≥ 1 && day ≤ daysInMonth year month &&
        numberAt text 11 2 < 24 && numberAt text 14 2 < 60 && numberAt text 17 2 < 60 &&
        validZone zone

/-- `validTimestamp`. -/
def validTimestamp (value : String) : Bool := validTimestampChars value.toList

/-! ## The policy -/

/-- The policy on a notification that the schema admits. -/
def checkPolicy (policy : AdmissionPolicy) (p : NotificationV2) : Except ErrorClass Unit :=
  if p.chatKind = .group then
    if p.chatJid ≠ p.canonicalChatJid then .error .payloadInvalid
    else if p.chatJid ∉ policy.groups then .error .policyDenied
    else .ok ()
  else if p.chatJid ∉ policy.operatorJids ∨ some p.canonicalChatJid ≠ policy.operatorJids[0]? then
    .error .policyDenied
  else if p.isFromMe = false ∧ (p.senderJid ∉ policy.operatorJids ∨
      ∃ alt ∈ p.senderAltJid, alt ∉ policy.operatorJids) then .error .policyDenied
  else .ok ()

/-- `parsePayload`. -/
def parsePayload (policy : AdmissionPolicy) (value : Option Wire) : Except ErrorClass NotificationV2 :=
  match value with
  | none => .error .payloadInvalid
  | some w =>
    match checkedNotification w with
    | .error code => .error code
    | .ok p =>
      if !validTimestamp p.eventTimestamp || !validTimestamp p.receivedAt ||
          p.messageId.utf8ByteSize > 512 then
        .error .payloadInvalid
      else
        match checkPolicy policy p with
        | .error code => .error code
        | .ok () =>
          if !Bridge.isOpaqueId p.eventId || !chatJidSchema p.canonicalChatJid then
            .error .payloadInvalid
          else .ok p

/-! ## What a payload has -/

/-- The event has the values of the body. -/
structure Wire.Of (w : Wire) (p : NotificationV2) : Prop where
  eventId : p.eventId = w.eventId
  messageId : p.messageId = w.messageId
  eventTimestamp : p.eventTimestamp = w.eventTimestamp
  receivedAt : p.receivedAt = w.receivedAt
  chatSequence : w.chatSequence = some p.chatSequence
  senderJid : w.senderJid = some p.senderJid
  senderAltJid : p.senderAltJid = w.senderAltJid
  isFromMe : w.isFromMe = some p.isFromMe
  chatKind : w.chatKind = some (if p.chatKind = .group then "group" else "operator_private")
  chatJid : p.chatJid = w.chatJid
  canonicalChatJid : w.canonicalChatJid = some p.canonicalChatJid

theorem checkedNotification_ok {w : Wire} {p : NotificationV2} (h : checkedNotification w = .ok p) :
    w.notificationV2Schema = true ∧ w.Of p := by
  unfold checkedNotification at h
  split at h
  · next hschema =>
    split at h
    · next sequence sender fromMe canonical hsequence hsender hfrom hcanonical =>
      obtain rfl := (Except.ok.inj h).symm
      have hkind : w.chatKind = some "group" ∨ w.chatKind = some "operator_private" := by
        simp only [Wire.notificationV2Schema, Wire.groupFields, Wire.privateFields,
          Bool.and_eq_true, Bool.or_eq_true, decide_eq_true_eq] at hschema
        tauto
      refine ⟨hschema, rfl, rfl, rfl, rfl, hsequence, hsender, rfl, hfrom, ?_, rfl, hcanonical⟩
      cases hkind with
      | inl hgroup => simp [hgroup]
      | inr hprivate => simp [hprivate]
    · cases h
  · cases h

/-- The policy admits only the chats that it configures. -/
theorem checkPolicy_configured {policy : AdmissionPolicy} {p : NotificationV2}
    (h : checkPolicy policy p = .ok ()) : p.canonicalChatJid ∈ policy.configuredChats := by
  unfold AdmissionPolicy.configuredChats
  rw [List.mem_eraseDups, List.mem_append]
  unfold checkPolicy at h
  split at h
  · split at h
    · cases h
    · next hsame =>
      split at h
      · cases h
      · next hgroup =>
        rw [not_not] at hsame hgroup
        exact Or.inl (hsame ▸ hgroup)
  · split at h
    · cases h
    · next hroute =>
      simp only [not_or, not_not] at hroute
      refine Or.inr (Option.mem_toList.mpr ?_)
      rw [List.head?_eq_getElem?, ← hroute.2]

/-- A body that is accepted passes the checks one after another. -/
theorem parsePayload_inv {policy : AdmissionPolicy} {value : Option Wire} {p : NotificationV2}
    (h : parsePayload policy value = .ok p) : ∃ w, value = some w ∧ checkedNotification w = .ok p ∧
      validTimestamp p.eventTimestamp = true ∧ validTimestamp p.receivedAt = true ∧
      p.messageId.utf8ByteSize ≤ 512 ∧ checkPolicy policy p = .ok () := by
  unfold parsePayload at h
  split at h
  · cases h
  · next w =>
    split at h
    · cases h
    · next checked hchecked =>
      split at h
      · cases h
      · next htimes =>
        split at h
        · cases h
        · next hadmit =>
          split at h
          · cases h
          · rw [← Except.ok.inj h]
            simp only [Bool.or_eq_true, not_or, Bool.not_eq_true', decide_eq_true_eq, not_lt,
              Bool.not_eq_false] at htimes
            exact ⟨w, rfl, hchecked, htimes.1.1, htimes.1.2, htimes.2, hadmit⟩

/-- A body that is accepted has an event with its values. -/
theorem parsePayload_ok {policy : AdmissionPolicy} {value : Option Wire} {p : NotificationV2}
    (h : parsePayload policy value = .ok p) : ∃ w, value = some w ∧ w.Of p := by
  obtain ⟨w, rfl, hchecked, -⟩ := parsePayload_inv h
  exact ⟨w, rfl, (checkedNotification_ok hchecked).2⟩

/-- The sequence of an accepted event is a safe integer. -/
theorem parsePayload_safe {policy : AdmissionPolicy} {value : Option Wire} {p : NotificationV2}
    (h : parsePayload policy value = .ok p) : p.chatSequence ≤ maxSafeInteger := by
  obtain ⟨w, -, hchecked, -⟩ := parsePayload_inv h
  obtain ⟨hschema, hof⟩ := checkedNotification_ok hchecked
  simp only [Wire.notificationV2Schema, Wire.eventFields, hof.chatSequence, Option.any_some,
    Bool.and_eq_true, decide_eq_true_eq] at hschema
  omega

/-- The chat of an accepted event is configured. -/
theorem parsePayload_configured {policy : AdmissionPolicy} {value : Option Wire}
    {p : NotificationV2} (h : parsePayload policy value = .ok p) :
    p.canonicalChatJid ∈ policy.configuredChats := by
  obtain ⟨-, -, -, -, -, -, hadmit⟩ := parsePayload_inv h
  exact checkPolicy_configured hadmit

end WhatsAppMcp.Controller.Intake
