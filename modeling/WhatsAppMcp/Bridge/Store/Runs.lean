import WhatsAppMcp.Lib.Trace
import WhatsAppMcp.Bridge.Store.Messages

/-!
# Runs of the bridge store

The system that the theorems about the store speak of: the database, the clock
of the server, and three records that no code keeps.

* `history` lists the events that the outbox ever received, in the order of
  their transactions.
* `pruned` lists the messages whose outbox row was deleted.
* `echoes` lists the own messages that were saved, with the instant of the save.

The first two are read off the database before and after a call and the third
off the answer that the call gives where it is heard, so they say nothing about
how the call works.
-/

namespace WhatsAppMcp.Bridge.Store

open Trace

/-- A call of the store. -/
inductive Op where
  /-- The chat row that a message refers to. -/
  | upsertChat (jid : String)
  | saveMessage (msg : Option MessageRow) (request : Option NotificationRequest)
  | registerOutboundOrigins (messageId : String) (chatJids : List String)
  | claimNotification (allowed : List String) (maxAttempts : Int) (lease : Int)
  | finishNotification (n : Notification) (outcome : NotificationOutcome)
  | maintainNotifications (enabled : Bool) (allowed : List String) (maxAttempts : Int)
      (retention : Int) (limit : Int)

/-- The database after a call. -/
def Op.run (op : Op) (env : Env) (db : Database) : Database :=
  match op with
  | .upsertChat jid => { db with chats := jid :: db.chats }
  | .saveMessage msg request => (Store.saveMessage env db msg request).1
  | .registerOutboundOrigins messageId chatJids =>
    (Store.registerOutboundOrigins env db messageId chatJids).1
  | .claimNotification allowed maxAttempts lease =>
    (Store.claimNotification env db allowed maxAttempts lease).1
  | .finishNotification n outcome => (Store.finishNotification env db n outcome).1
  | .maintainNotifications enabled allowed maxAttempts retention limit =>
    (Store.maintainNotifications env db enabled allowed maxAttempts retention limit).1

/-- A call, what it meets, and the clock when it is over. -/
structure Call where
  op : Op
  env : Env
  done : Int

/-- The database with its clock and its past. -/
structure System where
  db : Database
  clock : Int
  history : List OutboxEvent
  pruned : List (String × String)
  echoes : List ((String × String) × Int)

/-- The store as the migrations create it. -/
def System.initial (clock : Int) : System := ⟨.empty, clock, [], [], []⟩

/-- The events that the second database holds and the first does not. -/
def Database.added (db db' : Database) : List OutboxEvent :=
  (db'.outbox.rows.filter fun n => (db.outbox.lookup n.eventId).isNone).map OutboxRow.toOutboxEvent

/-- The messages of the events that the first database holds and the second
does not. -/
def Database.removed (db db' : Database) : List (String × String) :=
  (db.outbox.rows.filter fun n => (db'.outbox.lookup n.eventId).isNone).map (·.message)

/-- The own message that a call saves, with the clock of its transaction. -/
def Call.echo (c : Call) (db : Database) : Option ((String × String) × Int) :=
  match c.op with
  | .saveMessage (some m) request =>
    let saved := (Store.saveMessage c.env.heard db (some m) request).2
    if m.isFromMe ∧ (saved = .ok .inserted ∨ saved = .ok .updated) then
      some (m.key, c.env.clock .consumeOutboundOrigin)
    else none
  | _ => none

/-- The system after a call. -/
def System.after (s : System) (c : Call) : System :=
  let db' := c.op.run c.env s.db
  ⟨db', c.done, s.history ++ s.db.added db', s.pruned ++ s.db.removed db',
    s.echoes ++ (c.echo s.db).toList⟩

/-- A step.  The clock never goes back, and a new event id was never used. -/
structure System.Step (s : System) (c : Call) (s' : System) : Prop where
  next : s' = s.after c
  clock_lower : ∀ statement, s.clock ≤ c.env.clock statement
  clock_upper : ∀ statement, c.env.clock statement ≤ c.done
  clock_done : s.clock ≤ c.done
  fresh : ∀ msg request eventId, c.op = .saveMessage msg request →
    c.env.newNotificationId = .ok eventId → ∀ e ∈ s.history, e.eventId ≠ eventId

/-! ## Sample calls -/

/-- Nothing fails, and the clock shows one instant. -/
def sampleEnv (now : Int) (byte : UInt8) : Env where
  fails := fun _ => false
  clock := fun _ => now
  lockedEvents := []
  lockedOrigins := []
  random := some (Vector.replicate 16 byte)
  unanswered := false

/-- A call at an instant. -/
def sampleCall (op : Op) (now : Int) (byte : UInt8) : Call := ⟨op, sampleEnv now byte, now⟩

theorem sampleStep (s : System) (op : Op) (now : Int) (byte : UInt8) (hclock : s.clock ≤ now)
    (hfresh : ∀ e ∈ s.history, e.eventId ≠ hexEncode (Vector.replicate 16 byte).toList) :
    s.Step (sampleCall op now byte) (s.after (sampleCall op now byte)) where
  next := rfl
  clock_lower := fun _ => hclock
  clock_upper := fun _ => le_refl _
  clock_done := hclock
  fresh := by
    intro msg request eventId _ hid e he
    rw [← Except.ok.inj hid]
    exact hfresh e he

/-- An own message in a private chat. -/
def sampleMessage : MessageRow where
  id := "M1"
  chatJid := "15@lid"
  sender := "15@lid"
  senderName := ""
  content := "hello"
  timestamp := 1000
  isFromMe := true
  mediaType := ""
  filename := ""
  url := ""
  mediaKey := []
  fileSha256 := []
  fileEncSha256 := []
  fileLength := 0
  pushName := ""
  quotedMessageId := ""
  quotedParticipant := ""

/-- The request of a live event for the message. -/
def sampleRequest : NotificationRequest where
  receivedAt := 2000
  maxAge := hour
  canonicalChatJid := "15@lid"
  senderJid := "15@lid"
  senderAltJid := ""
  chatKind := "operator_private"
  isFromMe := true

/-- The chat of the message is there. -/
def sampleChat : System :=
  (System.initial 0).after (sampleCall (.upsertChat "15@lid") 10 0)

end WhatsAppMcp.Bridge.Store
