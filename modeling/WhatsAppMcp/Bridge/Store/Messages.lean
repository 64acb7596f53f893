import WhatsAppMcp.Bridge.Store.Notifications

/-!
# Saving a message

`SaveMessage` of `bridge/store/messages.go`: one transaction that writes the
message row, settles whether the message is one of the bridge's own sends, and
admits at most one notification.  Its three parts are `writeMessage`,
`classifyOrigin` and `enqueueNotification`, in the order of the source.
-/

namespace WhatsAppMcp.Bridge.Store

/-- `MessageWriteResult`. -/
inductive MessageWriteResult where
  | inserted
  | updated
  | skipped
  deriving DecidableEq, Repr

/-! ## Statements -/

/-- The row that a save stores. -/
def MessageRow.stored (m : MessageRow) (isBridgeOrigin : Bool) : StoredMessage :=
  { m with timestamp := truncateMicrosecond m.timestamp, isBridgeOrigin := isBridgeOrigin }

@[simp] theorem MessageRow.stored_key (m : MessageRow) (isBridgeOrigin : Bool) :
    (m.stored isBridgeOrigin).key = m.key := rfl

/-- `insertMessageSQL`.  No row comes back where the key is taken; a new row
needs its chat. -/
def Database.insertMessage (db : Database) (m : MessageRow) : Except TxError (Option Database) :=
  match db.messages.insert (m.stored false) with
  | none => .ok none
  | some messages =>
    if m.chatJid ∈ db.chats ∧ timestamptz m.timestamp then
      .ok (some { db with messages := messages })
    else .error .constraintViolated

/-- The columns that `updateMessageSQL` writes: all but the key and the
classification. -/
def StoredMessage.rewrite (m : MessageRow) (r : StoredMessage) : StoredMessage :=
  { m.stored r.isBridgeOrigin with id := r.id, chatJid := r.chatJid }

theorem StoredMessage.rewrite_key (m : MessageRow) (r : StoredMessage) :
    (r.rewrite m).key = r.key := rfl

/-- `updateMessageSQL`, with the number of rows. -/
def Database.updateMessage (db : Database) (m : MessageRow) : Except TxError (Database × Nat) :=
  let here := fun r : StoredMessage => r.id = m.id && r.chatJid = m.chatJid
  if timestamptz m.timestamp then
    let messages := db.messages.update here (StoredMessage.rewrite m) (StoredMessage.rewrite_key m)
    .ok ({ db with messages := messages }, db.messages.rows.countP here)
  else .error .constraintViolated

/-- `SET is_bridge_origin = TRUE`. -/
def StoredMessage.mark (r : StoredMessage) : StoredMessage := { r with isBridgeOrigin := true }

theorem StoredMessage.mark_key (r : StoredMessage) : r.mark.key = r.key := rfl

/-- `markMessageBridgeOriginSQL`, with the number of rows. -/
def Database.markMessageBridgeOrigin (db : Database) (id chatJid : String) : Database × Nat :=
  let here := fun r : StoredMessage => r.id = id && r.chatJid = chatJid
  let messages := db.messages.update here StoredMessage.mark StoredMessage.mark_key
  ({ db with messages := messages }, db.messages.rows.countP here)

/-! ## The transaction -/

/-- The message row is inserted, or updated with its classification read. -/
def writeMessage (env : Env) (m : MessageRow) (db : Database) :
    Except TxError (Database × MessageWriteResult × Bool) := do
  env.exec .insertMessage
  match ← db.insertMessage m with
  | some db => return (db, .inserted, false)
  | none => do
    env.exec .updateMessage
    let (db, count) ← db.updateMessage m
    if count ≠ 1 then throw .messageUpdateMissing
    else
      env.exec .selectMessageBridgeOrigin
      match db.messages.lookup m.key with
      | none => throw .noRows
      | some row => return (db, .updated, row.isBridgeOrigin)

/-- An own message consumes the origin that the send registered, and is marked
where there was one. -/
def classifyOrigin (env : Env) (m : MessageRow) (bridgeOrigin : Bool) (db : Database) :
    Except TxError (Database × Bool) := do
  if m.isFromMe && !bridgeOrigin then
    env.exec .consumeOutboundOrigin
    let (db, isMatched) ← db.consumeOutboundOrigin (env.clock .consumeOutboundOrigin) m.id m.chatJid
    if isMatched then
      env.exec .markMessageBridgeOrigin
      let (db, count) := db.markMessageBridgeOrigin m.id m.chatJid
      if count ≠ 1 then throw .messageOriginMarkMissing
      else return (db, true)
    else return (db, bridgeOrigin)
  else return (db, bridgeOrigin)

/-- The columns of the event that a save inserts. -/
def notificationEvent (m : MessageRow) (candidate : NotificationRequest) (eventId : String)
    (sequence : Nat) : OutboxEvent :=
  let receivedAt := truncateMicrosecond candidate.receivedAt
  { eventId := eventId
    schemaVersion := 2
    eventType := messageReceived
    chatJid := m.chatJid
    messageId := m.id
    eventTimestamp := truncateMicrosecond m.timestamp
    receivedAt := receivedAt
    expiresAt := truncateMicrosecond (receivedAt + candidate.maxAge)
    canonicalChatJid := some candidate.canonicalChatJid
    chatSequence := some sequence
    senderJid := some candidate.senderJid
    senderAltJid := if candidate.senderAltJid ≠ "" then some candidate.senderAltJid else none
    chatKind := some candidate.chatKind
    isFromMe := some candidate.isFromMe }

/-- The request is checked, a sequence is taken and the event is inserted. -/
def enqueueNotification (env : Env) (m : MessageRow) (candidate : NotificationRequest)
    (db : Database) : Except TxError Database := do
  if !validV2NotificationRequest m candidate then throw .notificationMetadataInvalid
  else
    let eventId ← env.newNotificationId
    env.exec .allocateNotificationSequence
    let (db, sequence) ← db.allocateNotificationSequence candidate.canonicalChatJid
    env.exec .insertNotification
    db.insertNotification (notificationEvent m candidate eventId sequence)

/-- Whether the message has its notification.  Only a row that was there before
can have one. -/
def alreadyNotified (env : Env) (m : MessageRow) (result : MessageWriteResult) (db : Database) :
    Except TxError Bool := do
  if result = .inserted then return false
  else
    env.exec .notificationExistsForMessage
    return db.notificationExistsForMessage m.chatJid m.id

/-- The transaction of `SaveMessage`. -/
def saveMessageTx (env : Env) (m : MessageRow) (request : Option NotificationRequest)
    (db : Database) : Except TxError (Database × MessageWriteResult) := do
  let (db, result, bridgeOrigin) ← writeMessage env m db
  let (db, bridgeOrigin) ← classifyOrigin env m bridgeOrigin db
  match request with
  | none => return (db, result)
  | some candidate => do
    if bridgeOrigin then return (db, result)
    else if ← alreadyNotified env m result db then return (db, result)
    else
      let db ← enqueueNotification env m candidate db
      return (db, result)

/-- Why `SaveMessage` returns an error. -/
inductive SaveError where
  | notificationMessageInvalid
  | notificationStoreFailed
  deriving DecidableEq, Repr

/-- What `SaveMessage` returns. -/
abbrev SaveResult := Except SaveError MessageWriteResult

/-- `SaveMessage`. -/
def saveMessage (env : Env) (db : Database) (msg : Option MessageRow)
    (request : Option NotificationRequest) : Database × SaveResult :=
  match msg with
  | none => (db, .error .notificationMessageInvalid)
  | some m =>
    if m.content = "" && m.mediaType = "" then (db, .ok .skipped)
    else match env.submit db (saveMessageTx env m request) with
      | (db, some result) => (db, .ok result)
      | (db, none) => (db, .error .notificationStoreFailed)

end WhatsAppMcp.Bridge.Store
