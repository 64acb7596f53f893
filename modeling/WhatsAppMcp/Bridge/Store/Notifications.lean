import WhatsAppMcp.Bridge.Store.OutboundOrigins

/-!
# The notification outbox

`bridge/store/notifications.go`: the sequence of a chat, the insertion of an
event, and the three operations of the dispatcher.

* `claimNotification` leases the first due event.
* `finishNotification` records an outcome under a live lease.
* `maintainNotifications` retires or requeues expired work, and prunes terminal
  events and origins, each statement up to a limit.
-/

namespace WhatsAppMcp.Bridge.Store

/-! ## Insertion -/

/-- `NotificationRequest`. -/
structure NotificationRequest where
  receivedAt : Int
  maxAge : Int
  canonicalChatJid : String
  senderJid : String
  senderAltJid : String
  chatKind : String
  isFromMe : Bool
  deriving DecidableEq, Repr

/-- `validV2NotificationRequest`. -/
def validV2NotificationRequest (message : MessageRow) (request : NotificationRequest) : Bool :=
  if message.id = "" || message.chatJid = "" || message.timestamp = zeroTime ||
      request.receivedAt = zeroTime || request.maxAge ≤ 0 || request.maxAge > week ||
      request.isFromMe != message.isFromMe || !isParticipantJid request.senderJid ||
      (request.senderAltJid ≠ "" && !isParticipantJid request.senderAltJid) then
    false
  else if request.chatKind = "group" then
    isGroupJid message.chatJid && request.canonicalChatJid = message.chatJid
  else if request.chatKind = "operator_private" then
    isPrivateJid message.chatJid && isPrivateJid request.canonicalChatJid
  else false

/-- `last_sequence = notification_chat_sequences.last_sequence + 1`. -/
def SequenceRow.next (r : SequenceRow) : SequenceRow :=
  { r with lastSequence := r.lastSequence + 1 }

theorem SequenceRow.next_key (r : SequenceRow) : r.next.canonicalChatJid = r.canonicalChatJid := rfl

/-- `allocateNotificationSequenceSQL`, with the number that it returns. -/
def Database.allocateNotificationSequence (db : Database) (canonicalChatJid : String) :
    Except TxError (Database × Nat) :=
  match db.sequences.lookup canonicalChatJid with
  | none =>
    match db.sequences.insert ⟨canonicalChatJid, 1⟩ with
    | some sequences => .ok ({ db with sequences := sequences }, 1)
    | none => .error .constraintViolated
  | some row =>
    if row.lastSequence < maxBigint then
      let sequences := db.sequences.update (fun r => r.canonicalChatJid = canonicalChatJid)
        SequenceRow.next SequenceRow.next_key
      .ok ({ db with sequences := sequences }, row.lastSequence + 1)
    else .error .constraintViolated

/-- The uniqueness constraints of `notification_outbox` beside its key:
`(event_type, chat_jid, message_id)` and `(canonical_chat_jid, chat_sequence)`,
the latter for values that are not `NULL`. -/
def OutboxEvent.Clashes (e e' : OutboxEvent) : Prop :=
  (e.eventType = e'.eventType ∧ e.message = e'.message) ∨
    (e.canonicalChatJid.isSome ∧ e.chatSequence.isSome ∧
      e.canonicalChatJid = e'.canonicalChatJid ∧ e.chatSequence = e'.chatSequence)

instance (e e' : OutboxEvent) : Decidable (e.Clashes e') := inferInstanceAs (Decidable (_ ∨ _))

/-- The defaults of the delivery columns; `next_attempt_at` is the receipt. -/
def OutboxEvent.fresh (e : OutboxEvent) : OutboxRow :=
  { e with
    state := .pending
    attempts := 0
    nextAttemptAt := e.receivedAt
    leaseToken := none
    leaseUntil := none
    terminalAt := none
    lastHttpStatus := 0
    lastErrorClass := "" }

/-- `insertNotificationSQL`, with the constraints of the table. -/
def Database.insertNotification (db : Database) (e : OutboxEvent) : Except TxError Database :=
  if e.fresh.Checks ∧ (db.messages.lookup e.message).isSome ∧
      ∀ n ∈ db.outbox.rows, ¬ n.toOutboxEvent.Clashes e then
    match db.outbox.insert e.fresh with
    | some outbox => .ok { db with outbox := outbox }
    | none => .error .constraintViolated
  else if e.fresh.Coherent then .error .constraintViolated
  else .error .checkViolated

/-- `notificationExistsForMessageSQL`. -/
def Database.notificationExistsForMessage (db : Database) (chatJid messageId : String) : Bool :=
  db.outbox.rows.any fun n =>
    n.eventType = messageReceived && n.chatJid = chatJid && n.messageId = messageId

/-- An update of outbox rows.  The server checks every row that it writes. -/
def Database.updateOutbox (db : Database) (sel : OutboxRow → Bool) (f : OutboxRow → OutboxRow)
    (hf : ∀ n, (f n).toOutboxEvent = n.toOutboxEvent) : Except TxError Database :=
  if ∀ n ∈ db.outbox.rows, sel n = true → (f n).Checks then
    let outbox := db.outbox.update sel f (fun n => congrArg OutboxEvent.eventId (hf n))
    .ok { db with outbox := outbox }
  else if ∀ n ∈ db.outbox.rows, sel n = true → (f n).Coherent then .error .constraintViolated
  else .error .checkViolated

/-! ## Claim -/

/-- `Notification`. -/
structure Notification where
  eventId : String
  schemaVersion : Nat
  eventType : String
  chatJid : String
  canonicalChatJid : String
  messageId : String
  eventTimestamp : Int
  receivedAt : Int
  expiresAt : Int
  chatSequence : Nat
  senderJid : String
  senderAltJid : String
  chatKind : String
  isFromMe : Bool
  attempts : Nat
  leaseToken : String
  deriving DecidableEq, Repr

/-- `populateClaimedNotification`: the columns of the claimed row, with the
metadata of its schema version. -/
def populateClaimedNotification (n : OutboxRow) : Except TxError Notification :=
  let base : Notification :=
    { eventId := n.eventId, schemaVersion := n.schemaVersion, eventType := n.eventType
      chatJid := n.chatJid, canonicalChatJid := "", messageId := n.messageId
      eventTimestamp := n.eventTimestamp, receivedAt := n.receivedAt, expiresAt := n.expiresAt
      chatSequence := 0, senderJid := "", senderAltJid := "", chatKind := "", isFromMe := false
      attempts := n.attempts, leaseToken := n.leaseToken.getD "" }
  if n.schemaVersion = 1 then
    if n.canonicalChatJid.isSome || n.chatSequence.isSome || n.senderJid.isSome ||
        n.senderAltJid.isSome || n.chatKind.isSome || n.isFromMe.isSome then
      .error .notificationMetadataInvalid
    else .ok base
  else if n.schemaVersion = 2 then
    match n.canonicalChatJid, n.chatSequence, n.senderJid, n.chatKind, n.isFromMe with
    | some canonical, some sequence, some sender, some kind, some fromMe =>
      if canonical = "" || sequence < 1 || sender = "" || kind = "" then
        .error .notificationMetadataInvalid
      else
        .ok { base with
          canonicalChatJid := canonical
          chatSequence := sequence
          senderJid := sender
          senderAltJid := n.senderAltJid.getD ""
          chatKind := kind
          isFromMe := fromMe }
    | _, _, _, _, _ => .error .notificationMetadataInvalid
  else .error .notificationMetadataInvalid

/-- The rows that `claimNotificationSQL` may lease. -/
def OutboxRow.due (n : OutboxRow) (now : Int) (allowed : List String) (maxAttempts : Int) : Bool :=
  n.state = .pending && n.nextAttemptAt ≤ now && n.expiresAt > now &&
    (n.attempts : Int) < maxAttempts && n.chatJid ∈ allowed

/-- `ORDER BY n.next_attempt_at, n.received_at, n.event_id`. -/
def OutboxRow.dueRank (n : OutboxRow) : Int ×ₗ Int ×ₗ String :=
  toLex (n.nextAttemptAt, toLex (n.receivedAt, n.eventId))

/-- The lease that `claimNotificationSQL` writes. -/
def OutboxRow.lease (token : String) (leaseUntil : Int) (n : OutboxRow) : OutboxRow :=
  { n with state := .leased, leaseToken := some token, leaseUntil := some leaseUntil
           attempts := n.attempts + 1 }

/-- `claimNotificationSQL`, with the row that it returns. -/
def Database.claimNotification (db : Database) (env : Env) (maxAttempts : Int)
    (allowed : List String) (token : String) (leaseMilliseconds : Int) :
    Except TxError (Database × Option OutboxRow) :=
  let now := env.clock .claimNotification
  let leaseUntil := now + leaseMilliseconds * millisecond
  match db.outbox.first
      (fun n => n.due now allowed maxAttempts && n.eventId ∉ env.lockedEvents)
      OutboxRow.dueRank 1 with
  | [] => .ok (db, none)
  | candidate :: _ => do
    let db ← db.updateOutbox (fun n => n.eventId = candidate.eventId)
      (OutboxRow.lease token leaseUntil) (fun _ => rfl)
    return (db, some (candidate.lease token leaseUntil))

/-- The transaction of `ClaimNotification`. -/
def claimNotificationTx (env : Env) (allowed : List String) (maxAttempts : Int) (token : String)
    (leaseMilliseconds : Int) (db : Database) :
    Except TxError (Database × Option Notification) := do
  env.exec .claimNotification
  let (db, claimed) ← db.claimNotification env maxAttempts allowed token leaseMilliseconds
  match claimed with
  | none => return (db, none)
  | some row => do
    let n ← populateClaimedNotification row
    return (db, some n)

/-- Why an operation of the dispatcher returns an error. -/
inductive NotificationError where
  | notificationClaimInvalid
  | notificationOutcomeInvalid
  | notificationMaintenanceInvalid
  | notificationEntropyFailed
  | notificationStoreFailed
  deriving DecidableEq, Repr

/-- `ClaimNotification`. -/
def claimNotification (env : Env) (db : Database) (allowed : List String) (maxAttempts : Int)
    (lease : Int) : Database × Except NotificationError (Option Notification) :=
  if allowed.isEmpty then (db, .ok none)
  else if maxAttempts < 1 || milliseconds lease < 1 then (db, .error .notificationClaimInvalid)
  else match env.newNotificationId with
    | .error _ => (db, .error .notificationEntropyFailed)
    | .ok token =>
      match env.submit db
          (claimNotificationTx env allowed maxAttempts token (milliseconds lease)) with
      | (db, some result) => (db, .ok result)
      | (db, none) => (db, .error .notificationStoreFailed)

/-! ## Finish -/

/-- `NotificationOutcome`. -/
structure NotificationOutcome where
  state : OutboxState
  failureClass : String
  httpStatus : Int
  nextAttemptAt : Int
  deriving DecidableEq, Repr

/-- `notificationClasses`. -/
def notificationClasses : List String :=
  ["", "network", "tls", "destination_policy", "http_permanent", "http_retry", "rate_limited",
    "protocol", "receiver_ignored", "expired", "attempts_exhausted", "policy_removed", "cancelled",
    "metadata_invalid"]

/-- The rows that `finishNotificationSQL` updates. -/
def OutboxRow.heldBy (n : OutboxRow) (now : Int) (eventId leaseToken : String) : Bool :=
  n.eventId = eventId && n.leaseToken = some leaseToken && n.state = .leased &&
    n.leaseUntil.any (now < ·)

/-- The columns that `finishNotificationSQL` writes. -/
def OutboxRow.finish (outcome : NotificationOutcome) (now : Int) (n : OutboxRow) : OutboxRow :=
  { n with
    state := outcome.state
    lastErrorClass := outcome.failureClass
    lastHttpStatus := outcome.httpStatus
    nextAttemptAt := truncateMicrosecond outcome.nextAttemptAt
    terminalAt := if outcome.state = .pending then none else some now
    leaseToken := none
    leaseUntil := none }

/-- The transaction of `FinishNotification`, with `count == 1`. -/
def finishNotificationTx (env : Env) (n : Notification) (outcome : NotificationOutcome)
    (db : Database) : Except TxError (Database × Bool) := do
  let now := env.clock .finishNotification
  env.exec .finishNotification
  let held := fun row : OutboxRow => row.heldBy now n.eventId n.leaseToken
  let count := db.outbox.rows.countP held
  let db ← db.updateOutbox held (OutboxRow.finish outcome now) (fun _ => rfl)
  return (db, count = 1)

/-- `FinishNotification`. -/
def finishNotification (env : Env) (db : Database) (n : Notification)
    (outcome : NotificationOutcome) : Database × Except NotificationError Bool :=
  if outcome.failureClass ∉ notificationClasses || outcome.state = .leased || outcome.httpStatus < 0 ||
      outcome.httpStatus > 599 then
    (db, .error .notificationOutcomeInvalid)
  else match env.submit db (finishNotificationTx env n outcome) with
    | (db, some changed) => (db, .ok changed)
    | (db, none) => (db, .error .notificationStoreFailed)

/-! ## Maintenance -/

/-- `n.expires_at <= c.now OR ($1 AND (n.attempts >= $2 OR NOT (n.chat_jid = ANY($3))))`. -/
def OutboxRow.retired (n : OutboxRow) (now : Int) (enabled : Bool) (maxAttempts : Int)
    (allowed : List String) : Bool :=
  n.expiresAt ≤ now || (enabled && (maxAttempts ≤ (n.attempts : Int) || n.chatJid ∉ allowed))

/-- The rows that `maintainNotificationsSQL` may update. -/
def OutboxRow.maintained (n : OutboxRow) (now : Int) (enabled : Bool) (maxAttempts : Int)
    (allowed : List String) : Bool :=
  (n.state = .pending || (n.state = .leased && n.leaseUntil.any (· ≤ now))) &&
    (n.retired now enabled maxAttempts allowed || n.state = .leased)

/-- The columns that `maintainNotificationsSQL` writes. -/
def OutboxRow.maintain (now : Int) (enabled : Bool) (maxAttempts : Int) (allowed : List String)
    (n : OutboxRow) : OutboxRow :=
  { n with
    state := if n.retired now enabled maxAttempts allowed then .dead else .pending
    lastErrorClass :=
      if n.expiresAt ≤ now then "expired"
      else if enabled && n.chatJid ∉ allowed then "policy_removed"
      else if enabled && maxAttempts ≤ (n.attempts : Int) then "attempts_exhausted"
      else "lease_expired"
    terminalAt := if n.retired now enabled maxAttempts allowed then some now else none
    leaseToken := none
    leaseUntil := none }

/-- `ORDER BY n.received_at, n.event_id`. -/
def OutboxRow.receivedRank (n : OutboxRow) : Int ×ₗ String := toLex (n.receivedAt, n.eventId)

/-- `maintainNotificationsSQL`. -/
def Database.maintainNotifications (db : Database) (env : Env) (enabled : Bool) (maxAttempts : Int)
    (allowed : List String) (limit : Nat) : Except TxError Database :=
  let now := env.clock .maintainNotifications
  let candidates := db.outbox.first
    (fun n => n.maintained now enabled maxAttempts allowed && n.eventId ∉ env.lockedEvents)
    OutboxRow.receivedRank limit
  db.updateOutbox (fun n => candidates.any (·.eventId = n.eventId))
    (OutboxRow.maintain now enabled maxAttempts allowed) (fun _ => rfl)

/-- The rows that `pruneNotificationsSQL` may delete. -/
def OutboxRow.prunable (n : OutboxRow) (now retention : Int) : Bool :=
  n.state.terminal && n.terminalAt.any (· ≤ now - retention)

/-- `ORDER BY terminal_at, event_id`. -/
def OutboxRow.terminalRank (n : OutboxRow) : Int ×ₗ String := toLex (n.terminalAt.getD 0, n.eventId)

/-- `pruneNotificationsSQL`. -/
def Database.pruneNotifications (db : Database) (env : Env) (retention : Int) (limit : Nat) :
    Database :=
  let now := env.clock .pruneNotifications
  let candidates := db.outbox.first
    (fun n => n.prunable now retention && n.eventId ∉ env.lockedEvents) OutboxRow.terminalRank limit
  { db with outbox := db.outbox.delete fun n => candidates.any (·.eventId = n.eventId) }

/-- The transaction of `MaintainNotifications`. -/
def maintainNotificationsTx (env : Env) (enabled : Bool) (allowed : List String) (maxAttempts : Int)
    (retentionMilliseconds : Int) (limit : Nat) (db : Database) :
    Except TxError (Database × Unit) := do
  env.exec .maintainNotifications
  let db ← db.maintainNotifications env enabled maxAttempts allowed limit
  env.exec .pruneNotifications
  let db := db.pruneNotifications env (retentionMilliseconds * millisecond) limit
  env.exec .pruneObservedOutboundOrigins
  let db := db.pruneObservedOutboundOrigins env observedOutboundOriginRetention limit
  env.exec .pruneUnobservedOutboundOrigins
  let db := db.pruneUnobservedOutboundOrigins env unobservedOutboundOriginRetention limit
  return (db, ())

/-- `MaintainNotifications`. -/
def maintainNotifications (env : Env) (db : Database) (enabled : Bool) (allowed : List String)
    (maxAttempts : Int) (retention : Int) (limit : Int) :
    Database × Except NotificationError Unit :=
  if limit < 1 || limit > 1000 || milliseconds retention < 1 then
    (db, .error .notificationMaintenanceInvalid)
  else match env.submit db
      (maintainNotificationsTx env enabled allowed maxAttempts (milliseconds retention)
        limit.toNat) with
    | (db, some ()) => (db, .ok ())
    | (db, none) => (db, .error .notificationStoreFailed)

end WhatsAppMcp.Bridge.Store
