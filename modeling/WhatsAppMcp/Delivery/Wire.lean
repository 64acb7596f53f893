import WhatsAppMcp.Bridge.Notify.Timestamps
import WhatsAppMcp.Bridge.Notify.Client
import WhatsAppMcp.Controller.Intake.Server

/-!
# What the bridge sends and the controller reads

The two ends of one request: the fields that `json.Marshal` writes for a payload,
as `JSON.parse` returns them, and the request that `Deliver` makes.

`event_of_request` says that an event which the controller takes from a request is
of schema version 2 and has the id, the chat and the sequence of the notification.
-/

namespace WhatsAppMcp.Delivery

open Bridge.Store (Notification)
open Bridge.Notify (Body Payload PayloadV2 payloadBytes payloadOf marshalTime)
open Controller (NotificationV2 AdmissionPolicy)
open Controller.Intake (Wire Request Conditions HttpConfig admitted admitted_parse parsePayload_ok)

/-! ## The body -/

/-- A payload of schema version 1 on the wire. -/
def wireV1 (p : Payload) : Wire where
  schemaVersion := p.schemaVersion
  eventType := p.eventType
  eventId := p.eventId
  chatJid := p.chatJid
  canonicalChatJid := none
  messageId := p.messageId
  eventTimestamp := marshalTime p.eventTimestamp
  receivedAt := marshalTime p.receivedAt
  chatSequence := none
  senderJid := none
  senderAltJid := none
  chatKind := none
  isFromMe := none

/-- A payload of schema version 2 on the wire; `sender_alt_jid` is there unless it is empty. -/
def wireV2 (p : PayloadV2) : Wire where
  schemaVersion := p.schemaVersion
  eventType := p.eventType
  eventId := p.eventId
  chatJid := p.chatJid
  canonicalChatJid := some p.canonicalChatJid
  messageId := p.messageId
  eventTimestamp := marshalTime p.eventTimestamp
  receivedAt := marshalTime p.receivedAt
  chatSequence := some p.chatSequence
  senderJid := some p.senderJid
  senderAltJid := if p.senderAltJid = "" then none else some p.senderAltJid
  chatKind := some p.chatKind
  isFromMe := some p.isFromMe

/-- A body on the wire. -/
def wireOf : Body → Wire
  | .v1 p => wireV1 p
  | .v2 p => wireV2 p

/-! ## The request -/

/-- What a request has beside its notification. -/
structure Envelope where
  url : String
  timestamp : String
  signature : String
  length : String

/-- The request that `Deliver` makes. -/
def requestOf (envelope : Envelope) (n : Notification) (body : Body) : Request where
  url := envelope.url
  method := "POST"
  rawHeaders := [("Content-Length", envelope.length), ("Content-Type", "application/json"),
    ("X-Request-Id", n.eventId), ("X-Webhook-Signature-V2", envelope.signature),
    ("X-Webhook-Timestamp", envelope.timestamp)]
  body := some (wireOf body)

/-! ## The event -/

/-- The event is the one that the notification tells of. -/
structure Tells (n : Notification) (event : NotificationV2) : Prop where
  version : n.schemaVersion = 2
  eventId : event.eventId = n.eventId
  chatJid : event.chatJid = n.chatJid
  canonicalChatJid : event.canonicalChatJid = n.canonicalChatJid
  chatSequence : event.chatSequence = n.chatSequence

/-- A body of schema version 2 has the values of its notification. -/
theorem payloadBytes_v2 {n : Notification} {p : PayloadV2} (h : payloadBytes n = some (.v2 p)) :
    n.schemaVersion = 2 ∧ p = { payloadOf n with
      canonicalChatJid := n.canonicalChatJid, chatSequence := n.chatSequence
      senderJid := n.senderJid, senderAltJid := n.senderAltJid, chatKind := n.chatKind
      isFromMe := n.isFromMe } := by
  unfold payloadBytes at h
  split at h
  · cases h
  split at h
  · split at h
    · cases h
    split at h <;> cases h
  split at h
  · next hversion =>
    simp only at h
    split at h
    · cases h
    split at h
    · cases h
      exact ⟨hversion, rfl⟩
    · cases h
  · cases h

/-- An event with the values of the body is that of the notification. -/
theorem tells_of_body {n : Notification} {body : Body} {event : NotificationV2}
    (hbody : payloadBytes n = some body) (hof : (wireOf body).Of event) : Tells n event := by
  cases body with
  | v1 p =>
    have hnone : (none : Option Nat) = some event.chatSequence := hof.chatSequence
    cases hnone
  | v2 p =>
    obtain ⟨hversion, rfl⟩ := payloadBytes_v2 hbody
    refine ⟨hversion, hof.eventId, hof.chatJid, ?_, ?_⟩
    · exact (Option.some.inj hof.canonicalChatJid).symm
    · exact (Option.some.inj hof.chatSequence).symm

/-- An event that the controller takes from a request is that of the notification. -/
theorem event_of_request {http : HttpConfig} {policy : AdmissionPolicy} {cond : Conditions}
    {envelope : Envelope} {n : Notification} {body : Body} {event : NotificationV2}
    (hbody : payloadBytes n = some body)
    (h : admitted http policy cond (requestOf envelope n body) = .ok event) : Tells n event := by
  obtain ⟨w, hw, hof⟩ := parsePayload_ok (admitted_parse h)
  obtain rfl : wireOf body = w := Option.some.inj hw
  exact tells_of_body hbody hof

end WhatsAppMcp.Delivery
