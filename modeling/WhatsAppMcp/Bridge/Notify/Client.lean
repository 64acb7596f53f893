import WhatsAppMcp.Bridge.Store.Notifications

/-!
# The delivery of one notification

`bridge/notify/client.go`: the payload of a notification, and what one request
to the receiver comes to.

The request goes to a function `exchange`, which stands for the transport and the
receiver.  A payload is the record that `json.Marshal` writes; of `json.Unmarshal`
and `http.ParseTime` nothing is used but that they are functions of their text
(`Decoders`).

* `retryAfter_bounds` bounds the delay that a receiver asks for.
* `deliver` has one definition for each kind of answer.
-/

namespace WhatsAppMcp.Bridge.Notify

open Store (Notification OutboxState messageReceived)

/-! ## Payloads -/

/-- `Payload`. -/
structure Payload where
  schemaVersion : Nat
  eventType : String
  eventId : String
  chatJid : String
  messageId : String
  eventTimestamp : Int
  receivedAt : Int
  deriving DecidableEq, Repr

/-- `PayloadV2`. -/
structure PayloadV2 extends Payload where
  canonicalChatJid : String
  chatSequence : Nat
  senderJid : String
  senderAltJid : String
  chatKind : String
  isFromMe : Bool
  deriving DecidableEq, Repr

/-- The body of a request, by its schema version. -/
inductive Body where
  | v1 (payload : Payload)
  | v2 (payload : PayloadV2)
  deriving DecidableEq, Repr

/-- `Time.MarshalJSON` refuses a year outside of 0 to 9999. -/
def marshalsTime (t : Int) : Bool :=
  -62167219200 * 1000000000 ≤ t && t < 253402300800 * 1000000000

/-- The fields of both schema versions. -/
def payloadOf (n : Notification) : Payload :=
  { schemaVersion := n.schemaVersion, eventType := n.eventType, eventId := n.eventId
    chatJid := n.chatJid, messageId := n.messageId, eventTimestamp := n.eventTimestamp
    receivedAt := n.receivedAt }

/-- `payloadBytes`, up to the encoding. -/
def payloadBytes (n : Notification) : Option Body :=
  if !isOpaqueId n.eventId || n.eventType ≠ messageReceived || !isChatJid n.chatJid ||
      n.messageId = "" || n.messageId.utf8ByteSize > 512 || n.eventTimestamp = zeroTime ||
      n.receivedAt = zeroTime then
    none
  else if n.schemaVersion = 1 then
    if n.canonicalChatJid ≠ "" || n.chatSequence ≠ 0 || n.senderJid ≠ "" || n.senderAltJid ≠ "" ||
        n.chatKind ≠ "" || n.isFromMe then
      none
    else if marshalsTime n.eventTimestamp && marshalsTime n.receivedAt then
      some (.v1 (payloadOf n))
    else none
  else if n.schemaVersion = 2 then
    let validRoute :=
      (n.chatKind = "group" && n.chatJid.endsWith "@g.us" && n.canonicalChatJid = n.chatJid) ||
        (n.chatKind = "operator_private" && isPrivateJid n.chatJid && isPrivateJid n.canonicalChatJid)
    if !validRoute || n.chatSequence < 1 || !isParticipantJid n.senderJid ||
        (n.senderAltJid ≠ "" && !isParticipantJid n.senderAltJid) then
      none
    else if marshalsTime n.eventTimestamp && marshalsTime n.receivedAt then
      some (.v2 { payloadOf n with
        canonicalChatJid := n.canonicalChatJid, chatSequence := n.chatSequence
        senderJid := n.senderJid, senderAltJid := n.senderAltJid, chatKind := n.chatKind
        isFromMe := n.isFromMe })
    else none
  else none

/-! ## The receiver -/

/-- A response as the client hands it over: three digits, a header, and a body that ends or
breaks off. -/
structure Response where
  statusCode : Fin 1000
  retryAfter : String
  body : List UInt8
  broken : Bool

/-- An error of `client.Do`, as far as `Deliver` tells errors apart. -/
inductive TransportError where
  | destinationPolicy
  | certificate
  | other (cancelled : Bool)
  deriving DecidableEq, Repr

/-- What comes of a request. -/
abbrev Exchange := Except TransportError Response

/-- The two fields of the acknowledgement. -/
structure Ack where
  status : String
  deliveryId : String
  deriving DecidableEq, Repr

/-- What `Deliver` uses of the standard library. -/
structure Decoders where
  unmarshal : List UInt8 → Option Ack
  parseTime : String → Option Int

/-- `io.ReadAll(io.LimitReader(resp.Body, 8193))`, with `len(raw) > 8192` an error as well. -/
def Response.read (r : Response) : Option (List UInt8) :=
  let raw := r.body.take 8193
  if (r.broken ∧ r.body.length < 8193) ∨ raw.length > 8192 then none else some raw

/-! ## Retry-After -/

/-- The greatest `Duration`. -/
def maxDuration : Int := 2 ^ 63 - 1

/-- `time.Second`. -/
def second : Int := 1000000000

/-- `strconv.ParseInt(raw, 10, 64)`. -/
def parseInt (raw : String) : Option Int :=
  let (negative, digits) :=
    match raw.toList with
    | '-' :: rest => (true, rest)
    | '+' :: rest => (false, rest)
    | all => (false, all)
  if digits = [] ∨ digits.any (fun c => !c.isDigit) then none
  else
    let n : Int := digits.foldl (fun n c => 10 * n + ((c.toNat : Int) - 48)) 0
    let value := if negative then -n else n
    if -2 ^ 63 ≤ value ∧ value < 2 ^ 63 then some value else none

/-- The second branch of `retryAfter`; `Time.Sub` saturates. -/
def retryAfterDate (parseTime : String → Option Int) (raw : String) (now : Int) : Int :=
  match parseTime raw with
  | some date => if now < date then min (date - now) maxDuration else 0
  | none => 0

/-- `retryAfter`. -/
def retryAfter (parseTime : String → Option Int) (raw : String) (now : Int) : Int :=
  match parseInt raw with
  | some seconds =>
    if 0 ≤ seconds then
      if seconds > maxDuration / second then maxDuration else seconds * second
    else retryAfterDate parseTime raw now
  | none => retryAfterDate parseTime raw now

/-- A receiver asks for a delay that a `Duration` can hold. -/
theorem retryAfter_bounds (parseTime : String → Option Int) (raw : String) (now : Int) :
    0 ≤ retryAfter parseTime raw now ∧ retryAfter parseTime raw now ≤ maxDuration := by
  have hdate : 0 ≤ retryAfterDate parseTime raw now ∧
      retryAfterDate parseTime raw now ≤ maxDuration := by
    unfold retryAfterDate maxDuration
    split
    · split
      · omega
      · omega
    · omega
  unfold retryAfter
  split
  · split
    · unfold maxDuration second
      split
      · omega
      · omega
    · exact hdate
  · exact hdate

/-! ## Deliver -/

/-- `DeliveryResult`. -/
structure DeliveryResult where
  state : OutboxState
  failureClass : String
  httpStatus : Int
  retryAfter : Int
  deriving DecidableEq, Repr

/-- Statuses after which the delivery is tried again. -/
def retriedStatus (status : Fin 1000) : Bool :=
  status = 408 || status = 425 || status = 429 || 500 ≤ status

/-- Statuses of success. -/
def successStatus (status : Fin 1000) : Bool := 200 ≤ status && status < 300

/-- `Deliver` where `client.Do` returns an error. -/
def ofTransportError : TransportError → DeliveryResult
  | .destinationPolicy => ⟨.dead, "destination_policy", 0, 0⟩
  | .certificate => ⟨.dead, "tls", 0, 0⟩
  | .other cancelled => ⟨.pending, if cancelled then "cancelled" else "network", 0, 0⟩

/-- `Deliver` where the response has a status of success. -/
def ofSuccess (decoders : Decoders) (n : Notification) (r : Response) : DeliveryResult :=
  let protocol : DeliveryResult := ⟨.pending, "protocol", r.statusCode.val, 0⟩
  match r.read with
  | none => protocol
  | some raw =>
    match decoders.unmarshal raw with
    | none => protocol
    | some ack =>
      if ack.status = "ignored" then ⟨.ignored, "receiver_ignored", r.statusCode.val, 0⟩
      else if ack.deliveryId = n.eventId ∧
          ((r.statusCode = 202 ∧ (ack.status = "accepted" ∨ ack.status = "coalesced")) ∨
            (r.statusCode = 200 ∧ ack.status = "duplicate")) then
        ⟨.accepted, "", r.statusCode.val, 0⟩
      else protocol

/-- `Deliver` where there is a response; `now` is the clock of the sender. -/
def ofResponse (decoders : Decoders) (n : Notification) (now : Int) (r : Response) :
    DeliveryResult :=
  if retriedStatus r.statusCode then
    ⟨.pending, if r.statusCode = 429 then "rate_limited" else "http_retry", r.statusCode.val,
      retryAfter decoders.parseTime r.retryAfter now⟩
  else if !successStatus r.statusCode then ⟨.dead, "http_permanent", r.statusCode.val, 0⟩
  else ofSuccess decoders n r

/-- `Deliver`. -/
def deliver (decoders : Decoders) (exchange : Body → Exchange) (n : Notification) (now : Int) :
    DeliveryResult :=
  match payloadBytes n with
  | none => ⟨.dead, "metadata_invalid", 0, 0⟩
  | some body =>
    match exchange body with
    | .error e => ofTransportError e
    | .ok r => ofResponse decoders n now r

end WhatsAppMcp.Bridge.Notify
