import WhatsAppMcp.Bridge.Client.Notifications
import WhatsAppMcp.Bridge.Store.Leases
import WhatsAppMcp.Delivery.Instants
import WhatsAppMcp.Delivery.Wire

/-!
# What is enqueued and what can be delivered

A message that `candidate` admits is saved together with its notification.  From then on the
row has a number of its chat, and the controller waits for that number.  Five validators look
at it on the way, each at other fields.

* `Reads` and `populate_row`: a row that the table admits is read back.
* `payloadBytes_iff` and `parsePayload_iff`: what the two ends of the request check beyond that.
* `deliverable_iff`: a saved row is delivered exactly when its texts and its instants are within
  the bounds of the two ends, which nothing checks before the row is saved.
-/

namespace WhatsAppMcp.Delivery

open Bridge (isOpaqueId isChatJid isGroupJid isPrivateJid isParticipantJid matchesJid zeroTime truncateMicrosecond)
open Bridge.Store (Notification OutboxRow OutboxEvent Database MessageRow NotificationRequest messageReceived
  populateClaimedNotification saveMessage)
open Bridge.Notify (Body Payload PayloadV2 payloadBytes payloadOf marshalTime marshalsTime)
open Bridge.Client (JidOps IncomingMessage NotificationPolicy withIncomingNotifications)
open Controller (NotificationV2 AdmissionPolicy groupJidSchema privateJidSchema participantJidSchema
  chatJidSchema messageIdSchema maxSafeInteger)
open Controller.Intake (Wire checkedNotification checkPolicy parsePayload validTimestamp)

/-! ## Reading a row back -/

/-- The notification has the values of the row. -/
structure Reads (n : Notification) (row : OutboxRow) : Prop where
  eventId : n.eventId = row.eventId
  schemaVersion : n.schemaVersion = 2
  eventType : n.eventType = row.eventType
  chatJid : n.chatJid = row.chatJid
  canonicalChatJid : row.canonicalChatJid = some n.canonicalChatJid
  messageId : n.messageId = row.messageId
  eventTimestamp : n.eventTimestamp = row.eventTimestamp
  receivedAt : n.receivedAt = row.receivedAt
  chatSequence : row.chatSequence = some n.chatSequence
  senderJid : row.senderJid = some n.senderJid
  senderAltJid : n.senderAltJid = row.senderAltJid.getD ""
  chatKind : row.chatKind = some n.chatKind
  isFromMe : row.isFromMe = some n.isFromMe

/-- A row of schema version 2 that the table admits is read back. -/
theorem populate_row {row : OutboxRow} (hversion : row.schemaVersion = 2)
    (h : row.toOutboxEvent.MetadataCoherent) :
    ∃ n, populateClaimedNotification row = .ok n ∧ Reads n row := by
  rcases h with ⟨hone, -⟩ | ⟨-, hsequence, hsender, -, hfrom, hroute⟩
  · omega
  obtain ⟨sequence, hseq, hpos⟩ := (Option.any_eq_true _ _).mp hsequence
  obtain ⟨sender, hsend, hparticipant⟩ := (Option.any_eq_true _ _).mp hsender
  obtain ⟨fromMe, hme⟩ := Option.isSome_iff_exists.mp hfrom
  obtain ⟨canonical, kind, hcanonical, hkind, hne, hknown⟩ : ∃ canonical kind,
      row.canonicalChatJid = some canonical ∧ row.chatKind = some kind ∧ canonical ≠ "" ∧ kind ≠ "" := by
    rcases hroute with ⟨hkind, hgroup, hsame⟩ | ⟨hkind, hprivate, hoperator⟩
    · exact ⟨_, _, hsame, hkind, Bridge.Client.ne_empty_of_jid hgroup, by decide⟩
    · obtain ⟨canonical, hcanonical, hjid⟩ := (Option.any_eq_true _ _).mp hoperator
      exact ⟨canonical, _, hcanonical, hkind, Bridge.Client.ne_empty_of_jid hjid, by decide⟩
  have hsender' : sender ≠ "" := Bridge.Client.ne_empty_of_jid hparticipant
  have hpos' : ¬ sequence < 1 := by
    rw [decide_eq_true_eq] at hpos
    omega
  unfold populateClaimedNotification
  dsimp only
  rw [if_neg (by omega), if_pos hversion, hcanonical, hseq, hsend, hkind, hme]
  dsimp only
  rw [if_neg (by simp [hne, hsender', hknown, hpos'])]
  exact ⟨_, rfl, rfl, hversion, rfl, rfl, hcanonical, rfl, rfl, rfl, hseq, hsend, rfl, hkind, hme⟩

/-! ## The notifications of saved messages -/

/-- The policy of the controller for the chats that the bridge allows. -/
def policyOf (allowed : List String) : AdmissionPolicy :=
  ⟨allowed.filter isGroupJid, allowed.filter isPrivateJid⟩

/-- What the bridge has checked of a notification that it enqueued. -/
structure Enqueued (allowed : List String) (n : Notification) : Prop where
  eventId : isOpaqueId n.eventId = true
  eventType : n.eventType = messageReceived
  schemaVersion : n.schemaVersion = 2
  messageId : n.messageId ≠ ""
  chatSequence : 1 ≤ n.chatSequence
  senderJid : isParticipantJid n.senderJid = true
  senderAltJid : n.senderAltJid ≠ "" → isParticipantJid n.senderAltJid = true
  route : (n.chatKind = "group" ∧ n.chatJid ∈ allowed.filter isGroupJid ∧ n.canonicalChatJid = n.chatJid) ∨
    (n.chatKind = "operator_private" ∧ n.chatJid ∈ allowed.filter isPrivateJid ∧
      (allowed.filter isPrivateJid)[0]? = some n.canonicalChatJid ∧
      (n.isFromMe = false → n.senderJid ∈ allowed.filter isPrivateJid ∧
        (n.senderAltJid ≠ "" → n.senderAltJid ∈ allowed.filter isPrivateJid)))

/-- What the two ends of the request check beyond that. -/
structure Fits (n : Notification) : Prop where
  messageId : n.messageId.utf8ByteSize ≤ 512
  chatJid : n.chatJid.length ≤ 128
  canonicalChatJid : n.canonicalChatJid.length ≤ 128
  senderJid : n.senderJid.length ≤ 128
  senderAltJid : n.senderAltJid.length ≤ 128
  eventTimestamp : zeroTime < n.eventTimestamp ∧ n.eventTimestamp < 253402300800 * 1000000000
  receivedAt : zeroTime < n.receivedAt ∧ n.receivedAt < 253402300800 * 1000000000

/-- The event of a notification. -/
def eventOf (n : Notification) (hpos : 1 ≤ n.chatSequence) : NotificationV2 where
  eventId := n.eventId
  messageId := n.messageId
  eventTimestamp := marshalTime n.eventTimestamp
  receivedAt := marshalTime n.receivedAt
  chatSequence := n.chatSequence
  senderJid := n.senderJid
  senderAltJid := if n.senderAltJid = "" then none else some n.senderAltJid
  isFromMe := n.isFromMe
  chatKind := if n.chatKind = "group" then .group else .operatorPrivate
  chatJid := n.chatJid
  canonicalChatJid := n.canonicalChatJid
  chatSequence_pos := hpos

variable {allowed : List String} {n : Notification}

/-- The payload of a notification. -/
def payloadV2Of (n : Notification) : PayloadV2 :=
  { payloadOf n with
    canonicalChatJid := n.canonicalChatJid, chatSequence := n.chatSequence
    senderJid := n.senderJid, senderAltJid := n.senderAltJid, chatKind := n.chatKind
    isFromMe := n.isFromMe }

/-- The identity of a group ends with its server. -/
theorem endsWith_of_group {jid : String} (h : isGroupJid jid = true) : jid.endsWith "@g.us" = true := by
  unfold isGroupJid matchesJid at h
  simp only [List.any_cons, List.any_nil, Bool.or_false, Bool.and_eq_true, beq_iff_eq] at h
  rw [← String.endsWith_toSlice, String.Slice.endsWith_string_iff]
  have hsuffix := List.dropWhile_suffix (l := jid.toList) Char.isDigit
  rw [h.2] at hsuffix
  simpa using hsuffix

/-- The chat of an enqueued notification. -/
theorem Enqueued.chat (h : Enqueued allowed n) :
    (n.chatKind = "group" ∧ isGroupJid n.chatJid = true ∧ n.canonicalChatJid = n.chatJid) ∨
      (n.chatKind = "operator_private" ∧ isPrivateJid n.chatJid = true ∧
        isPrivateJid n.canonicalChatJid = true) := by
  rcases h.route with ⟨hkind, hgroup, hsame⟩ | ⟨hkind, hprivate, hcanonical, -⟩
  · exact Or.inl ⟨hkind, (List.mem_filter.mp hgroup).2, hsame⟩
  · exact Or.inr ⟨hkind, (List.mem_filter.mp hprivate).2,
      (List.mem_filter.mp (List.mem_of_getElem? hcanonical)).2⟩

/-- The payload fails for the length of a message id and for an instant. -/
theorem payloadBytes_iff (h : Enqueued allowed n) (body : Body) :
    payloadBytes n = some body ↔ body = .v2 (payloadV2Of n) ∧ n.messageId.utf8ByteSize ≤ 512 ∧
      n.eventTimestamp ≠ zeroTime ∧ n.receivedAt ≠ zeroTime ∧
      marshalsTime n.eventTimestamp = true ∧ marshalsTime n.receivedAt = true := by
  have hchat : isChatJid n.chatJid = true := by
    rcases h.chat with ⟨-, hgroup, -⟩ | ⟨-, hprivate, -⟩
    · exact Bridge.isChatJid_of_group hgroup
    · exact Bridge.isChatJid_of_private hprivate
  have hroute : ((n.chatKind = "group" && n.chatJid.endsWith "@g.us" && n.canonicalChatJid = n.chatJid) ||
      (n.chatKind = "operator_private" && isPrivateJid n.chatJid && isPrivateJid n.canonicalChatJid)) =
        true := by
    rcases h.chat with ⟨hkind, hgroup, hsame⟩ | ⟨hkind, hprivate, hcanonical⟩
    · simp [hkind, endsWith_of_group hgroup, hsame]
    · simp [hkind, hprivate, hcanonical]
  have hguard : (!isOpaqueId n.eventId || n.eventType ≠ messageReceived || !isChatJid n.chatJid ||
      n.messageId = "" || n.messageId.utf8ByteSize > 512 || n.eventTimestamp = zeroTime ||
      n.receivedAt = zeroTime : Bool) = (decide (512 < n.messageId.utf8ByteSize) ||
        decide (n.eventTimestamp = zeroTime) || decide (n.receivedAt = zeroTime)) := by
    simp [h.eventId, h.eventType, hchat, h.messageId]
  have halt : (decide (n.senderAltJid ≠ "") && !isParticipantJid n.senderAltJid) = false := by
    by_cases hnone : n.senderAltJid = ""
    · simp [hnone]
    · simp [h.senderAltJid hnone]
  have hinner : (!true || decide (n.chatSequence < 1) || !isParticipantJid n.senderJid ||
      (decide (n.senderAltJid ≠ "") && !isParticipantJid n.senderAltJid)) = false := by
    rw [halt, h.senderJid, decide_eq_false (Nat.not_lt.mpr h.chatSequence)]
    rfl
  unfold payloadBytes
  dsimp only
  rw [hguard, if_neg (show ¬ n.schemaVersion = 1 by rw [h.schemaVersion]; decide), if_pos h.schemaVersion,
    hroute, hinner, if_neg Bool.false_ne_true]
  split
  · next hbad =>
    simp only [Bool.or_eq_true, decide_eq_true_eq] at hbad
    refine ⟨nofun, fun ⟨_, hid, hevent, hreceived, _⟩ => ?_⟩
    omega
  · next hgood =>
    simp only [Bool.or_eq_true, decide_eq_true_eq, not_or, Nat.not_lt] at hgood
    split
    · next htimes =>
      obtain ⟨hevent, hreceived⟩ := Bool.and_eq_true_iff.mp htimes
      rw [Option.some.injEq, eq_comm]
      exact ⟨fun hbody => ⟨hbody, hgood.1.1, hgood.1.2, hgood.2, hevent, hreceived⟩, fun hbody => hbody.1⟩
    · next htimes =>
      refine ⟨nofun, fun ⟨_, _, _, _, hevent, hreceived⟩ => absurd ?_ htimes⟩
      rw [hevent, hreceived]
      rfl

/-- A text has at most as many characters as bytes. -/
theorem length_le_utf8ByteSize (text : String) : text.length ≤ text.utf8ByteSize := by
  have hchars : ∀ chars : List Char, chars.length ≤ chars.utf8Encode.size := by
    intro chars
    induction chars with
    | nil => simp
    | cons c chars ih =>
      have hpos := c.utf8Size_pos
      rw [List.utf8Encode_cons, ByteArray.size_append, List.length_cons]
      simp only [List.utf8Encode_singleton, List.size_toByteArray, String.length_utf8EncodeChar]
      omega
  have htext := hchars text.toList
  rw [String.length_toList] at htext
  simpa using htext

theorem messageIdSchema_of_bytes {text : String} (hne : text ≠ "") (h : text.utf8ByteSize ≤ 512) :
    messageIdSchema text = true := by
  have hlength := length_le_utf8ByteSize text
  have hpos : text.length ≠ 0 := fun hzero => hne (String.length_eq_zero_iff.mp hzero)
  unfold messageIdSchema
  simp only [Bool.and_eq_true, decide_eq_true_eq]
  omega

theorem eventFields_iff (h : Enqueued allowed n) (hsequence : n.chatSequence ≤ maxSafeInteger)
    (hid : n.messageId.utf8ByteSize ≤ 512) :
    (wireV2 (payloadV2Of n)).eventFields = true ↔ n.senderJid.length ≤ 128 ∧ n.senderAltJid.length ≤ 128 := by
  have halt : (if n.senderAltJid = "" then none else some n.senderAltJid : Option String).all
      participantJidSchema = true ↔ n.senderAltJid.length ≤ 128 := by
    by_cases hnone : n.senderAltJid = ""
    · rw [if_pos hnone, hnone]
      decide
    · rw [if_neg hnone, Option.all_some, participantJidSchema, h.senderAltJid hnone, Bool.true_and,
        decide_eq_true_eq]
  have hsender : participantJidSchema n.senderJid = true ↔ n.senderJid.length ≤ 128 := by
    rw [participantJidSchema, h.senderJid, Bool.true_and, decide_eq_true_eq]
  have hpos : (1 ≤ n.chatSequence && n.chatSequence ≤ maxSafeInteger : Bool) = true := by
    simp [h.chatSequence, hsequence]
  show (decide (n.schemaVersion = 2) && decide (n.eventType = messageReceived) && isOpaqueId n.eventId &&
    messageIdSchema n.messageId && Controller.timestampSchema (marshalTime n.eventTimestamp) &&
    Controller.timestampSchema (marshalTime n.receivedAt) &&
    (1 ≤ n.chatSequence && n.chatSequence ≤ maxSafeInteger : Bool) && participantJidSchema n.senderJid &&
    (if n.senderAltJid = "" then none else some n.senderAltJid : Option String).all participantJidSchema &&
    true) = true ↔ _
  rw [hpos, h.eventId, messageIdSchema_of_bytes h.messageId hid, timestampSchema_marshalTime,
    timestampSchema_marshalTime, decide_eq_true h.schemaVersion, decide_eq_true h.eventType]
  simp only [Bool.and_true, Bool.true_and, Bool.and_eq_true, hsender, halt]

/-- The schema bounds the identities. -/
theorem notificationV2Schema_iff (h : Enqueued allowed n) (hsequence : n.chatSequence ≤ maxSafeInteger)
    (hid : n.messageId.utf8ByteSize ≤ 512) :
    (wireV2 (payloadV2Of n)).notificationV2Schema = true ↔
      n.chatJid.length ≤ 128 ∧ n.canonicalChatJid.length ≤ 128 ∧ n.senderJid.length ≤ 128 ∧
        n.senderAltJid.length ≤ 128 := by
  have hroute : ((wireV2 (payloadV2Of n)).groupFields || (wireV2 (payloadV2Of n)).privateFields) = true ↔
      n.chatJid.length ≤ 128 ∧ n.canonicalChatJid.length ≤ 128 := by
    show ((decide (some n.chatKind = some "group") && groupJidSchema n.chatJid &&
      groupJidSchema n.canonicalChatJid) || (decide (some n.chatKind = some "operator_private") &&
        privateJidSchema n.chatJid && privateJidSchema n.canonicalChatJid)) = true ↔ _
    rcases h.chat with ⟨hkind, hgroup, hsame⟩ | ⟨hkind, hprivate, hcanonical⟩
    · simp [hkind, hsame, groupJidSchema, hgroup]
    · simp [hkind, privateJidSchema, hprivate, hcanonical]
  unfold Wire.notificationV2Schema
  rw [Bool.and_eq_true, eventFields_iff h hsequence hid, hroute]
  tauto

theorem checkedNotification_eq (h : Enqueued allowed n)
    (hschema : (wireV2 (payloadV2Of n)).notificationV2Schema = true) :
    checkedNotification (wireV2 (payloadV2Of n)) = .ok (eventOf n h.chatSequence) := by
  obtain ⟨k, hk⟩ : ∃ k, n.chatSequence = k + 1 := Nat.exists_eq_add_of_le' h.chatSequence
  have hsequence : (wireV2 (payloadV2Of n)).chatSequence = some (k + 1) := congrArg some hk
  have hkind : (if (wireV2 (payloadV2Of n)).chatKind = some "group" then Controller.ChatKind.group
      else .operatorPrivate) = if n.chatKind = "group" then .group else .operatorPrivate := by
    show (if some n.chatKind = some "group" then _ else _) = _
    simp only [Option.some.injEq]
  unfold checkedNotification
  rw [if_pos hschema, hsequence]
  dsimp only [wireV2]
  rw [Except.ok.injEq, eventOf, NotificationV2.mk.injEq]
  exact ⟨rfl, rfl, rfl, rfl, hk.symm, rfl, rfl, rfl, hkind, rfl, rfl⟩

/-- The policy of the controller admits what the policy of the bridge does. -/
theorem checkPolicy_eventOf (h : Enqueued allowed n) :
    checkPolicy (policyOf allowed) (eventOf n h.chatSequence) = .ok () := by
  unfold checkPolicy
  rcases h.route with ⟨hkind, hgroup, hsame⟩ | ⟨hkind, hprivate, hcanonical, hsender⟩
  · have hevent : (eventOf n h.chatSequence).chatKind = .group := if_pos hkind
    rw [if_pos hevent]
    show (if n.chatJid ≠ n.canonicalChatJid then _ else if n.chatJid ∉ allowed.filter isGroupJid then _ else _) = _
    rw [if_neg (not_not.mpr hsame.symm), if_neg (not_not.mpr hgroup)]
  · have hevent : (eventOf n h.chatSequence).chatKind ≠ .group := by
      show (if n.chatKind = "group" then _ else _) ≠ _
      rw [if_neg (by rw [hkind]; decide)]
      nofun
    rw [if_neg hevent, if_neg, if_neg]
    · rintro ⟨hfrom, hout⟩
      obtain ⟨hin, halt⟩ := hsender hfrom
      rcases hout with hout | ⟨alt, hmem, hout⟩
      · exact hout hin
      · by_cases hnone : n.senderAltJid = ""
        · have hempty : (eventOf n h.chatSequence).senderAltJid = none := if_pos hnone
          rw [hempty] at hmem
          cases hmem
        · have hsome : (eventOf n h.chatSequence).senderAltJid = some n.senderAltJid := if_neg hnone
          rw [hsome] at hmem
          obtain rfl := Option.some.inj hmem
          exact hout (halt hnone)
    · rintro (hout | hout)
      · exact hout hprivate
      · exact hout hcanonical.symm

/-- The body is accepted within the bounds of the schema, from the year 1 on. -/
theorem parsePayload_iff (h : Enqueued allowed n) (hsequence : n.chatSequence ≤ maxSafeInteger)
    (hid : n.messageId.utf8ByteSize ≤ 512) (hevent : marshalsTime n.eventTimestamp = true)
    (hreceived : marshalsTime n.receivedAt = true) :
    parsePayload (policyOf allowed) (some (wireOf (.v2 (payloadV2Of n)))) = .ok (eventOf n h.chatSequence) ↔
      (n.chatJid.length ≤ 128 ∧ n.canonicalChatJid.length ≤ 128 ∧ n.senderJid.length ≤ 128 ∧
        n.senderAltJid.length ≤ 128) ∧ zeroTime ≤ n.eventTimestamp ∧ zeroTime ≤ n.receivedAt := by
  rw [← notificationV2Schema_iff h hsequence hid, ← validTimestamp_marshalTime hevent,
    ← validTimestamp_marshalTime hreceived]
  constructor
  · intro haccepted
    obtain ⟨w, hw, hchecked, hevent', hreceived', -⟩ := Controller.Intake.parsePayload_inv haccepted
    obtain rfl := Option.some.inj hw
    exact ⟨(Controller.Intake.checkedNotification_ok hchecked).1, hevent', hreceived'⟩
  · rintro ⟨hschema, hevent', hreceived'⟩
    have hchat : chatJidSchema n.canonicalChatJid = true := by
      obtain ⟨-, hcanonical, -⟩ := (notificationV2Schema_iff h hsequence hid).mp hschema
      unfold chatJidSchema groupJidSchema privateJidSchema
      rw [decide_eq_true hcanonical, Bool.and_true, Bool.and_true]
      rcases h.chat with ⟨-, hgroup, hsame⟩ | ⟨-, -, hprivate⟩
      · rw [hsame, hgroup, Bool.true_or]
      · rw [hprivate, Bool.or_true]
    unfold parsePayload
    dsimp only [wireOf]
    rw [checkedNotification_eq h hschema]
    dsimp only
    rw [checkPolicy_eventOf h, if_neg, if_neg]
    · show ¬ (!isOpaqueId n.eventId || !chatJidSchema n.canonicalChatJid) = true
      rw [h.eventId, hchat]
      decide
    · show ¬ (!validTimestamp (marshalTime n.eventTimestamp) || !validTimestamp (marshalTime n.receivedAt) ||
        decide (512 < n.messageId.utf8ByteSize)) = true
      rw [hevent', hreceived', decide_eq_false (Nat.not_lt.mpr hid)]
      decide

/-- An enqueued notification is delivered within these bounds. -/
theorem fits_iff (h : Enqueued allowed n) (hsequence : n.chatSequence ≤ maxSafeInteger) :
    (∃ body, payloadBytes n = some body ∧
        parsePayload (policyOf allowed) (some (wireOf body)) = .ok (eventOf n h.chatSequence)) ↔ Fits n := by
  have htime : ∀ t, (t ≠ zeroTime ∧ marshalsTime t = true ∧ zeroTime ≤ t) ↔
      zeroTime < t ∧ t < 253402300800 * 1000000000 := by
    intro t
    unfold marshalsTime zeroTime
    simp only [Bool.and_eq_true, decide_eq_true_eq]
    omega
  constructor
  · rintro ⟨body, hbody, haccepted⟩
    obtain ⟨rfl, hid, hevent, hreceived, hevent', hreceived'⟩ := (payloadBytes_iff h body).mp hbody
    obtain ⟨⟨hchat, hcanonical, hsender, halt⟩, hyear, hyear'⟩ :=
      (parsePayload_iff h hsequence hid hevent' hreceived').mp haccepted
    exact ⟨hid, hchat, hcanonical, hsender, halt, (htime _).mp ⟨hevent, hevent', hyear⟩,
      (htime _).mp ⟨hreceived, hreceived', hyear'⟩⟩
  · rintro ⟨hid, hchat, hcanonical, hsender, halt, hevent, hreceived⟩
    obtain ⟨hevent, hevent', hyear⟩ := (htime _).mpr hevent
    obtain ⟨hreceived, hreceived', hyear'⟩ := (htime _).mpr hreceived
    exact ⟨_, (payloadBytes_iff h _).mpr ⟨rfl, hid, hevent, hreceived, hevent', hreceived'⟩,
      (parsePayload_iff h hsequence hid hevent' hreceived').mpr
        ⟨⟨hchat, hcanonical, hsender, halt⟩, hyear, hyear'⟩⟩

/-! ## Saved messages -/

variable {J : JidOps} {maxAge receivedAt : Int} {evt : IncomingMessage J} {m : MessageRow}
  {request : NotificationRequest} {env : Bridge.Store.Env} {db : Database} {row : OutboxRow}

/-- The event that a save adds is the one of the message, and the table admits it. -/
theorem event_of_saved {e : OutboxEvent}
    (h : e ∈ db.added (saveMessage env db (some m) (some request)).1) :
    Bridge.Store.validV2NotificationRequest m request = true ∧ e.Checks ∧
      ∃ eventId sequence, e = Bridge.Store.notificationEvent m request eventId sequence := by
  rcases Bridge.Store.saveMessage_cases env db (some m) (some request) with ⟨hsame, -⟩ | ⟨m', hm, hsaves, -⟩
  · rw [hsame, Bridge.Store.added_of_sublist (List.Sublist.refl _)] at h
    cases h
  obtain rfl := Option.some.inj hm
  generalize (saveMessage env db (some m) (some request)).1 = db' at h hsaves
  cases hsaves with
  | silent wrote =>
    have hevents : db'.events.Sublist db.events := by
      unfold Database.events
      rw [wrote.outbox]
    rw [Bridge.Store.added_of_sublist hevents] at h
    cases h
  | @notified db₁ candidate eventId sequence wrote asked valid generated enqueued =>
    obtain rfl := Option.some.inj asked
    have hadded : db.added db' = db₁.added db' := by
      unfold Database.added
      rw [wrote.outbox]
    rw [hadded, enqueued.added, List.mem_singleton] at h
    exact ⟨valid, h ▸ enqueued.checks.1, eventId, sequence, h⟩

/-- What is read back from the row of a message has the values of the message and of its request. -/
structure Tied (m : MessageRow) (request : NotificationRequest) (n : Notification) : Prop where
  chatJid : n.chatJid = m.chatJid
  messageId : n.messageId = m.id
  eventTimestamp : n.eventTimestamp = truncateMicrosecond m.timestamp
  receivedAt : n.receivedAt = truncateMicrosecond request.receivedAt
  canonicalChatJid : n.canonicalChatJid = request.canonicalChatJid
  senderJid : n.senderJid = request.senderJid
  senderAltJid : n.senderAltJid = request.senderAltJid
  chatKind : n.chatKind = request.chatKind
  isFromMe : n.isFromMe = request.isFromMe

theorem Reads.tied {eventId : String} {sequence : Nat} (h : Reads n row)
    (hevent : row.toOutboxEvent = Bridge.Store.notificationEvent m request eventId sequence) :
    Tied m request n := by
  have halt : row.senderAltJid = if request.senderAltJid ≠ "" then some request.senderAltJid else none :=
    congrArg OutboxEvent.senderAltJid hevent
  refine ⟨h.chatJid.trans (congrArg OutboxEvent.chatJid hevent),
    h.messageId.trans (congrArg OutboxEvent.messageId hevent),
    h.eventTimestamp.trans (congrArg OutboxEvent.eventTimestamp hevent),
    h.receivedAt.trans (congrArg OutboxEvent.receivedAt hevent),
    Option.some.inj (h.canonicalChatJid.symm.trans (congrArg OutboxEvent.canonicalChatJid hevent)),
    Option.some.inj (h.senderJid.symm.trans (congrArg OutboxEvent.senderJid hevent)), ?_,
    Option.some.inj (h.chatKind.symm.trans (congrArg OutboxEvent.chatKind hevent)),
    Option.some.inj (h.isFromMe.symm.trans (congrArg OutboxEvent.isFromMe hevent))⟩
  rw [h.senderAltJid, halt]
  by_cases hnone : request.senderAltJid = ""
  · rw [if_neg (not_not.mpr hnone), hnone]
    rfl
  · rw [if_pos hnone]
    rfl

/-- The bridge has checked what it reads back from the row of a candidate. -/
theorem enqueued_of_saved
    (hcandidate : (withIncomingNotifications allowed maxAge).candidate evt receivedAt = some request)
    (hsaved : row.toOutboxEvent ∈ db.added (saveMessage env db (some evt.event.row) (some request)).1)
    (hreads : Reads n row) : Enqueued allowed n := by
  obtain ⟨hvalid, hchecks, eventId, sequence, hevent⟩ := event_of_saved hsaved
  have htied := hreads.tied hevent
  obtain ⟨hid, -, htype, -, -, -, -, hmetadata⟩ := hchecks
  unfold Bridge.Store.validV2NotificationRequest at hvalid
  split at hvalid
  · cases hvalid
  next hfields =>
  simp only [Bool.or_eq_true, Bool.and_eq_true, not_or, not_and, Bool.not_eq_true', Bool.not_eq_false,
    decide_eq_true_eq] at hfields
  obtain ⟨⟨⟨⟨⟨⟨⟨⟨hmessage, -⟩, -⟩, -⟩, -⟩, -⟩, -⟩, hsender⟩, halt⟩ := hfields
  have hpos : 1 ≤ n.chatSequence := by
    rcases hmetadata with ⟨-, -, hnone, -⟩ | ⟨-, hsequence, -⟩
    · rw [hreads.chatSequence] at hnone
      cases hnone
    · rw [hreads.chatSequence] at hsequence
      exact of_decide_eq_true hsequence
  obtain ⟨hgroups, hoperators⟩ := Bridge.Client.withIncomingNotifications_spec allowed maxAge
  refine ⟨hreads.eventId ▸ hid, hreads.eventType.trans htype, hreads.schemaVersion, htied.messageId ▸ hmessage,
    hpos, htied.senderJid ▸ hsender, htied.senderAltJid ▸ halt, ?_⟩
  rw [htied.chatKind, htied.chatJid, htied.canonicalChatJid, htied.isFromMe, htied.senderJid, htied.senderAltJid]
  rcases (Bridge.Client.candidate_spec hcandidate).2 with ⟨hkind, hchat, hcanonical⟩ |
    ⟨hkind, hchat, hcanonical, hfrom⟩
  · exact Or.inl ⟨hkind, hgroups _ hchat, hcanonical⟩
  · obtain ⟨hprivate, hfirst⟩ := hoperators _ hchat
    refine Or.inr ⟨hkind, hprivate, ?_, fun hnot => ⟨(hoperators _ (hfrom hnot).1).1, fun hne =>
      (hoperators _ ((hfrom hnot).2 hne)).1⟩⟩
    rw [hcanonical, hfirst, ← List.head?_eq_getElem?, List.head?_eq_some_head (List.ne_nil_of_mem hprivate)]
    rfl

/-- The row is read back, its payload is written, and the controller accepts the payload as the
event of the row. -/
def Deliverable (allowed : List String) (row : OutboxRow) : Prop :=
  ∃ n body, ∃ hpos : 1 ≤ n.chatSequence, populateClaimedNotification row = .ok n ∧ Reads n row ∧
    payloadBytes n = some body ∧
    parsePayload (policyOf allowed) (some (wireOf body)) = .ok (eventOf n hpos)

/-- To the microsecond, the instant is after the first one of the year 1 and before the year 10000. -/
def Dated (t : Int) : Prop :=
  zeroTime < truncateMicrosecond t ∧ truncateMicrosecond t < 253402300800 * 1000000000

/-- The texts and the instants of a message are within the bounds of its delivery. -/
structure Bounded (m : MessageRow) (request : NotificationRequest) : Prop where
  messageId : m.id.utf8ByteSize ≤ 512
  chatJid : m.chatJid.length ≤ 128
  canonicalChatJid : request.canonicalChatJid.length ≤ 128
  senderJid : request.senderJid.length ≤ 128
  senderAltJid : request.senderAltJid.length ≤ 128
  timestamp : Dated m.timestamp
  receivedAt : Dated request.receivedAt

theorem Tied.fits_iff (h : Tied m request n) : Fits n ↔ Bounded m request := by
  constructor
  · rintro ⟨hid, hchat, hcanonical, hsender, halt, hevent, hreceived⟩
    rw [h.messageId] at hid
    rw [h.chatJid] at hchat
    rw [h.canonicalChatJid] at hcanonical
    rw [h.senderJid] at hsender
    rw [h.senderAltJid] at halt
    rw [h.eventTimestamp] at hevent
    rw [h.receivedAt] at hreceived
    exact ⟨hid, hchat, hcanonical, hsender, halt, hevent, hreceived⟩
  · rintro ⟨hid, hchat, hcanonical, hsender, halt, hevent, hreceived⟩
    refine ⟨h.messageId ▸ hid, h.chatJid ▸ hchat, h.canonicalChatJid ▸ hcanonical, h.senderJid ▸ hsender,
      h.senderAltJid ▸ halt, ?_, ?_⟩
    · rw [h.eventTimestamp]
      exact hevent
    · rw [h.receivedAt]
      exact hreceived

/-- The notification of a message that the policy admits and the bridge saves is delivered exactly
within the bounds. -/
theorem deliverable_iff
    (hcandidate : (withIncomingNotifications allowed maxAge).candidate evt receivedAt = some request)
    (hsaved : row.toOutboxEvent ∈ db.added (saveMessage env db (some evt.event.row) (some request)).1)
    (hsequence : ∀ k, row.chatSequence = some k → k ≤ maxSafeInteger) :
    Deliverable allowed row ↔ Bounded evt.event.row request := by
  obtain ⟨-, hchecks, eventId, sequence, hevent⟩ := event_of_saved hsaved
  have hversion : row.schemaVersion = 2 := congrArg OutboxEvent.schemaVersion hevent
  have hmetadata : row.toOutboxEvent.MetadataCoherent := hchecks.2.2.2.2.2.2.2
  constructor
  · rintro ⟨n, body, hpos, -, hreads, hbody, haccepted⟩
    have henqueued := enqueued_of_saved hcandidate hsaved hreads
    exact (hreads.tied hevent).fits_iff.mp
      ((fits_iff henqueued (hsequence _ hreads.chatSequence)).mp ⟨body, hbody, haccepted⟩)
  · intro hbounded
    obtain ⟨n, hpopulate, hreads⟩ := populate_row hversion hmetadata
    have henqueued := enqueued_of_saved hcandidate hsaved hreads
    obtain ⟨body, hbody, haccepted⟩ := (fits_iff henqueued (hsequence _ hreads.chatSequence)).mpr
      ((hreads.tied hevent).fits_iff.mpr hbounded)
    exact ⟨n, body, henqueued.chatSequence, hpopulate, hreads, hbody, haccepted⟩

/-! ## A message of an allowed group -/

def sampleJids : JidOps := ⟨String, id, id, fun jid => jid = ""⟩

def sampleAllowed : List String := ["100@g.us", "300@lid"]

/-- A text in the group. -/
def sampleArrival (id : String) : IncomingMessage sampleJids where
  event :=
    { id := id, chatJid := "100@g.us", chatServer := Bridge.Client.groupServer, chatName := "Group 100"
      sender := "500@s.whatsapp.net", senderUser := "500", pushName := "", timestamp := 1000
      isFromMe := false, message := some ⟨"hello", none, none, none, none, none⟩, stamp := ""
      candidate := none }
  isEdit := false
  edit := ""
  sourceWebMsg := false
  unavailableRequestId := ""
  chat := "100@g.us"
  sender := "500@s.whatsapp.net"
  senderAlt := ""
  recipientAlt := ""
  chatJid := rfl
  senderJid := rfl

/-- The request of the policy for it. -/
def sampleGroupRequest : NotificationRequest where
  receivedAt := 2000
  maxAge := Bridge.hour
  canonicalChatJid := "100@g.us"
  senderJid := "500@s.whatsapp.net"
  senderAltJid := ""
  chatKind := "group"
  isFromMe := false

def sampleGroupChat : Database := { Database.empty with chats := ["100@g.us"] }

/-- The row that the save adds. -/
def sampleRow (id : String) : OutboxRow :=
  (Bridge.Store.notificationEvent (sampleArrival id).event.row sampleGroupRequest
    (Bridge.Store.hexEncode (List.replicate 16 1)) 1).fresh

theorem candidate_sampleArrival :
    (withIncomingNotifications sampleAllowed Bridge.hour).candidate (sampleArrival "M1") 2000 =
      some sampleGroupRequest := by
  decide +kernel

theorem saved_sampleRow : (sampleRow "M1").toOutboxEvent ∈ sampleGroupChat.added
    (saveMessage (Bridge.Store.sampleEnv 3000 1) sampleGroupChat (some (sampleArrival "M1").event.row)
      (some sampleGroupRequest)).1 := by
  decide +kernel

/-- The message is delivered. -/
theorem deliverable_iff_of_sampleRow : Deliverable sampleAllowed (sampleRow "M1") :=
  (deliverable_iff candidate_sampleArrival saved_sampleRow
    (by decide)).mpr ⟨by decide, by decide, by decide, by decide, by decide, ⟨by decide, by decide⟩,
      by decide, by decide⟩

/-- A message id of 513 bytes is saved and is never delivered. -/
theorem saved_not_deliverable : ¬ ∀ (J : JidOps) (allowed : List String) (maxAge receivedAt : Int)
    (evt : IncomingMessage J) (request : NotificationRequest) (env : Bridge.Store.Env) (db : Database)
    (row : OutboxRow),
    (withIncomingNotifications allowed maxAge).candidate evt receivedAt = some request →
    row.toOutboxEvent ∈ db.added (saveMessage env db (some evt.event.row) (some request)).1 →
    (∀ k, row.chatSequence = some k → k ≤ maxSafeInteger) → Deliverable allowed row := by
  intro h
  let long := String.ofList (List.replicate 513 'a')
  have hcandidate : (withIncomingNotifications sampleAllowed Bridge.hour).candidate (sampleArrival long) 2000 =
      some sampleGroupRequest := by
    decide +kernel
  have hsaved : (sampleRow long).toOutboxEvent ∈ sampleGroupChat.added
      (saveMessage (Bridge.Store.sampleEnv 3000 1) sampleGroupChat (some (sampleArrival long).event.row)
        (some sampleGroupRequest)).1 := by
    decide +kernel
  obtain ⟨n, body, -, -, hreads, hbody, -⟩ := h sampleJids _ _ _ _ _ _ _ _ hcandidate hsaved (by decide +kernel)
  obtain ⟨-, hid, -⟩ := (payloadBytes_iff (enqueued_of_saved hcandidate hsaved hreads) body).mp hbody
  rw [hreads.messageId] at hid
  revert hid
  decide +kernel

end WhatsAppMcp.Delivery
