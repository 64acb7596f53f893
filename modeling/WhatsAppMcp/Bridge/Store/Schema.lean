import Mathlib.Data.List.Infix
import WhatsAppMcp.Lib.Table
import WhatsAppMcp.Bridge.Values

/-!
# The tables of the bridge store

The rows, the constraints and the tables of `bridge/migrations`, as far as the
message, notification and origin statements use them.

* A column that may be `NULL` is an `Option`.
* A primary key is the key of its `Table`, so no database value can hold two
  rows with one key.
* The `CHECK` constraints are decidable predicates on a row.  The statements
  evaluate them, as the server does, for every row that they write.
-/

namespace WhatsAppMcp.Bridge.Store

/-! ## Messages -/

/-- `MessageRow`, with the columns that a save writes. -/
structure MessageRow where
  id : String
  chatJid : String
  sender : String
  senderName : String
  content : String
  timestamp : Int
  isFromMe : Bool
  mediaType : String
  filename : String
  url : String
  mediaKey : List UInt8
  fileSha256 : List UInt8
  fileEncSha256 : List UInt8
  fileLength : Int
  pushName : String
  quotedMessageId : String
  quotedParticipant : String
  deriving DecidableEq, Repr

/-- A row of `messages`. -/
structure StoredMessage extends MessageRow where
  isBridgeOrigin : Bool
  deriving DecidableEq, Repr

/-- The primary key `(id, chat_jid)`. -/
def MessageRow.key (m : MessageRow) : String × String := (m.id, m.chatJid)

/-! ## The notification outbox -/

/-- `state` of an outbox row. -/
inductive OutboxState where
  | pending
  | leased
  | accepted
  | ignored
  | dead
  deriving DecidableEq, Repr

/-- `state IN ('accepted', 'ignored', 'dead')`. -/
def OutboxState.terminal : OutboxState → Bool
  | .accepted | .ignored | .dead => true
  | .pending | .leased => false

/-- The columns of an outbox row that no statement changes. -/
structure OutboxEvent where
  eventId : String
  schemaVersion : Nat
  eventType : String
  chatJid : String
  messageId : String
  eventTimestamp : Int
  receivedAt : Int
  expiresAt : Int
  canonicalChatJid : Option String
  chatSequence : Option Nat
  senderJid : Option String
  senderAltJid : Option String
  chatKind : Option String
  isFromMe : Option Bool
  deriving DecidableEq, Repr

/-- A row of `notification_outbox`. -/
structure OutboxRow extends OutboxEvent where
  state : OutboxState
  attempts : Nat
  nextAttemptAt : Int
  leaseToken : Option String
  leaseUntil : Option Int
  terminalAt : Option Int
  lastHttpStatus : Int
  lastErrorClass : String
  deriving DecidableEq, Repr

/-- The message that an event is about. -/
def OutboxEvent.message (e : OutboxEvent) : String × String := (e.messageId, e.chatJid)

/-- `'whatsapp.message.received'`. -/
def messageReceived : String := "whatsapp.message.received"

/-- `notification_v2_metadata_coherent`. -/
def OutboxEvent.MetadataCoherent (e : OutboxEvent) : Prop :=
  (e.schemaVersion = 1 ∧ e.canonicalChatJid = none ∧ e.chatSequence = none ∧
      e.senderJid = none ∧ e.senderAltJid = none ∧ e.chatKind = none ∧ e.isFromMe = none) ∨
    (e.schemaVersion = 2 ∧ e.chatSequence.any (0 < ·) ∧ e.senderJid.any isParticipantJid ∧
      e.senderAltJid.all isParticipantJid ∧ e.isFromMe.isSome ∧
      ((e.chatKind = some "group" ∧ isGroupJid e.chatJid ∧ e.canonicalChatJid = some e.chatJid) ∨
        (e.chatKind = some "operator_private" ∧ isPrivateJid e.chatJid ∧
          e.canonicalChatJid.any isPrivateJid)))

/-- The `CHECK` constraints and the column types of the unchanging columns. -/
def OutboxEvent.Checks (e : OutboxEvent) : Prop :=
  isOpaqueId e.eventId ∧ (e.schemaVersion = 1 ∨ e.schemaVersion = 2) ∧
    e.eventType = messageReceived ∧ timestamptz e.eventTimestamp ∧ timestamptz e.receivedAt ∧
    timestamptz e.expiresAt ∧ e.receivedAt < e.expiresAt ∧ e.MetadataCoherent

/-- `notification_lease_fields_coherent`. -/
def OutboxRow.LeaseFieldsCoherent (n : OutboxRow) : Prop :=
  (n.state = .leased ∧ n.leaseToken.isSome ∧ n.leaseUntil.isSome) ∨
    (n.state ≠ .leased ∧ n.leaseToken = none ∧ n.leaseUntil = none)

/-- `notification_terminal_timestamp_coherent`. -/
def OutboxRow.TerminalTimestampCoherent (n : OutboxRow) : Prop :=
  (n.state.terminal = true ∧ n.terminalAt.isSome) ∨ (n.state.terminal = false ∧ n.terminalAt = none)

/-- The `CHECK` constraints and the column types of an outbox row. -/
def OutboxRow.Checks (n : OutboxRow) : Prop :=
  n.toOutboxEvent.Checks ∧ timestamptz n.nextAttemptAt ∧ n.leaseUntil.all timestamptz ∧
    n.terminalAt.all timestamptz ∧ n.LeaseFieldsCoherent ∧ n.TerminalTimestampCoherent ∧
    0 ≤ n.lastHttpStatus ∧ n.lastHttpStatus ≤ 599

/-- The `CHECK` constraints alone of the unchanging columns. -/
def OutboxEvent.Coherent (e : OutboxEvent) : Prop :=
  isOpaqueId e.eventId ∧ (e.schemaVersion = 1 ∨ e.schemaVersion = 2) ∧
    e.eventType = messageReceived ∧ e.receivedAt < e.expiresAt ∧ e.MetadataCoherent

/-- The `CHECK` constraints alone of an outbox row. -/
def OutboxRow.Coherent (n : OutboxRow) : Prop :=
  n.toOutboxEvent.Coherent ∧ n.LeaseFieldsCoherent ∧ n.TerminalTimestampCoherent ∧
    0 ≤ n.lastHttpStatus ∧ n.lastHttpStatus ≤ 599

theorem OutboxRow.Checks.coherent {n : OutboxRow} (h : n.Checks) : n.Coherent := by
  obtain ⟨⟨hid, hversion, htype, -, -, -, hexpiry, hmetadata⟩, -, -, -, hlease, hterminal, hstatus⟩ := h
  exact ⟨⟨hid, hversion, htype, hexpiry, hmetadata⟩, hlease, hterminal, hstatus⟩

instance (e : OutboxEvent) : Decidable e.MetadataCoherent := inferInstanceAs (Decidable (_ ∨ _))
instance (e : OutboxEvent) : Decidable e.Checks := inferInstanceAs (Decidable (_ ∧ _))
instance (n : OutboxRow) : Decidable n.LeaseFieldsCoherent := inferInstanceAs (Decidable (_ ∨ _))
instance (n : OutboxRow) : Decidable n.TerminalTimestampCoherent :=
  inferInstanceAs (Decidable (_ ∨ _))
instance (n : OutboxRow) : Decidable n.Checks := inferInstanceAs (Decidable (_ ∧ _))
instance (e : OutboxEvent) : Decidable e.Coherent := inferInstanceAs (Decidable (_ ∧ _))
instance (n : OutboxRow) : Decidable n.Coherent := inferInstanceAs (Decidable (_ ∧ _))

/-! ## Sequences and origins -/

/-- A row of `notification_chat_sequences`. -/
structure SequenceRow where
  canonicalChatJid : String
  lastSequence : Nat
  deriving DecidableEq, Repr

/-- The greatest `BIGINT`. -/
def maxBigint : Nat := 2 ^ 63 - 1

/-- A row of `bridge_outbound_origins`. -/
structure OriginRow where
  messageId : String
  chatJid : String
  createdAt : Int
  observedAt : Option Int
  deriving DecidableEq, Repr

/-- The primary key `(message_id, chat_jid)`. -/
def OriginRow.key (o : OriginRow) : String × String := (o.messageId, o.chatJid)

/-- The `CHECK` constraints of an origin row. -/
def OriginRow.Checks (o : OriginRow) : Prop :=
  o.messageId ≠ "" ∧ isChatJid o.chatJid ∧ o.observedAt.all (o.createdAt ≤ ·)

instance (o : OriginRow) : Decidable o.Checks := inferInstanceAs (Decidable (_ ∧ _))

/-! ## The database -/

/-- The tables that the statements below read and write.  Of `chats` only the
key is used, as the target of a foreign key. -/
structure Database where
  chats : List String
  messages : Table StoredMessage (String × String) (·.key)
  outbox : Table OutboxRow String (·.eventId)
  sequences : Table SequenceRow String (·.canonicalChatJid)
  origins : Table OriginRow (String × String) OriginRow.key

/-- The tables as the migrations create them. -/
def Database.empty : Database := ⟨[], .empty, .empty, .empty, .empty⟩

end WhatsAppMcp.Bridge.Store
