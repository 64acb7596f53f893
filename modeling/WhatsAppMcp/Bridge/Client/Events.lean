import WhatsAppMcp.Bridge.Client.Extraction
import WhatsAppMcp.Bridge.Store.Chats
import WhatsAppMcp.Bridge.Store.Messages
import WhatsAppMcp.Lib.Calls

/-!
# The message handlers

`processMessage` and `processHistorySync` of `bridge/client/events.go`, as
programs that call the store.  A statement that fails is logged, and the handler
goes on as the source has it.

What the client library answers is part of the event: the name of the chat that
`resolveChatName` finds, the parse of a JID, and the notification that
`candidate` admits.  The rows that `captureMedia` and `captureLinks` write are
of other tables and are left out.
-/

namespace WhatsAppMcp.Bridge.Client

open Calls Store

/-! ## Calls of the store -/

/-- A call of the store. -/
inductive StoreCall
  | upsertChat (row : ChatRow)
  | incrementUnread (chatJid : String)
  | saveMessage (m : MessageRow) (request : Option NotificationRequest)

/-- What a call comes back with; the chat statements only say whether there was
no error. -/
abbrev StoreCall.Answer : StoreCall → Type
  | .upsertChat _ | .incrementUnread _ => Bool
  | .saveMessage _ _ => SaveResult

/-- A handler. -/
abbrev Handler (α : Type) := Prog StoreCall StoreCall.Answer Empty α

/-- One call. -/
def call (q : StoreCall) : Handler q.Answer := Prog.query q

/-- The server of the JID of a group. -/
def groupServer : String := "g.us"

/-! ## Live messages -/

/-- `events.Message`.  `stamp` is `nowStamp` in the handler. -/
structure MessageEvent where
  id : String
  chatJid : String
  chatServer : String
  chatName : String
  sender : String
  senderUser : String
  pushName : String
  timestamp : Int
  isFromMe : Bool
  message : Option Message
  stamp : String
  candidate : Option NotificationRequest

/-- The row of the chat that the handler upserts. -/
def MessageEvent.chat (evt : MessageEvent) (preview : String) : ChatRow where
  jid := evt.chatJid
  name := evt.chatName
  isGroup := evt.chatServer = groupServer
  unreadCount := 0
  lastMsgTime := evt.timestamp
  lastPreview := preview

/-- The message row that the handler saves. -/
def MessageEvent.row (evt : MessageEvent) : MessageRow :=
  let (content, quotedId, quotedParticipant) := extractTextContent evt.message
  let media := extractMediaInfo evt.stamp evt.message
  { id := evt.id
    chatJid := evt.chatJid
    sender := evt.sender
    senderName := if evt.pushName = "" then evt.senderUser else evt.pushName
    content := content
    timestamp := evt.timestamp
    isFromMe := evt.isFromMe
    mediaType := media.mediaType
    filename := media.filename
    url := media.url
    mediaKey := media.mediaKey
    fileSha256 := media.fileSha256
    fileEncSha256 := media.fileEncSha256
    fileLength := media.fileLength.toBitVec.toInt
    pushName := evt.pushName
    quotedMessageId := quotedId
    quotedParticipant := quotedParticipant }

/-- The preview of a message row. -/
def preview (m : MessageRow) : String := previewOf m.content m.mediaType

/-- `processMessage`. -/
def processMessage (evt : MessageEvent) : Handler Unit := do
  let _ ← call (.upsertChat (evt.chat ""))
  if evt.isFromMe = false then
    let _ ← call (.incrementUnread evt.chatJid)
  let _ ← call (.upsertChat (evt.chat (preview evt.row)))
  let _ ← call (.saveMessage evt.row evt.candidate)

/-! ## History -/

/-- `MessageKey`. -/
structure MessageKey where
  id : String
  fromMe : Bool
  participant : String

/-- `WebMessageInfo`. -/
structure WebMessage where
  timestamp : UInt64
  key : Option MessageKey
  message : Option Message
  pushName : String
  stamp : String

/-- `Conversation`.  `server` is that of the parsed JID, or `none` where it cannot
be parsed, and `own` is `c.WA.Store.ID.User`. -/
structure Conversation where
  id : String
  jid : String
  server : Option String
  chatName : String
  own : Option String
  messages : List (Option WebMessage)

/-- `time.Unix(int64(t), 0)`. -/
def unixTime (t : UInt64) : Int := t.toBitVec.toInt * 1000000000

/-- The row of the chat that the handler upserts. -/
def Conversation.chat (conv : Conversation) (server : String) (time : Int) (preview : String) :
    ChatRow where
  jid := conv.id
  name := conv.chatName
  isGroup := server = groupServer
  unreadCount := 0
  lastMsgTime := time
  lastPreview := preview

/-- The sender of a history message. -/
def Conversation.sender (conv : Conversation) (key : Option MessageKey) : String :=
  match key with
  | none => ""
  | some key =>
    if key.fromMe then (conv.own.map (· ++ "@s.whatsapp.net")).getD ""
    else if key.participant ≠ "" then key.participant
    else conv.jid

/-- The message row that the handler saves. -/
def Conversation.row (conv : Conversation) (wm : WebMessage) : MessageRow :=
  let (content, quotedId, quotedParticipant) := extractTextContent wm.message
  let media := extractMediaInfo wm.stamp wm.message
  { id := (wm.key.map (·.id)).getD ""
    chatJid := conv.id
    sender := conv.sender wm.key
    senderName := wm.pushName
    content := content
    timestamp := unixTime wm.timestamp
    isFromMe := wm.key.any (·.fromMe)
    mediaType := media.mediaType
    filename := media.filename
    url := media.url
    mediaKey := media.mediaKey
    fileSha256 := media.fileSha256
    fileEncSha256 := media.fileEncSha256
    fileLength := media.fileLength.toBitVec.toInt
    pushName := wm.pushName
    quotedMessageId := quotedId
    quotedParticipant := quotedParticipant }

/-- `latestTime` and `latestPreview` after a message was stored. -/
def later (latest : Int × String) (m : MessageRow) : Int × String :=
  if latest.1 < m.timestamp then (m.timestamp, preview m) else latest

/-- The loop over the messages of a conversation. -/
def syncMessages (conv : Conversation) :
    List (Option WebMessage) → Int × String → Handler (Int × String)
  | [], latest => pure latest
  | none :: rest, latest => syncMessages conv rest latest
  | some wm :: rest, latest => do
    match ← call (.saveMessage (conv.row wm) none) with
    | .error _ => syncMessages conv rest latest
    | .ok _ => syncMessages conv rest (later latest (conv.row wm))

/-- One conversation. -/
def syncConversation (conv : Conversation) : Handler Unit :=
  if conv.id = "" then pure ()
  else match conv.server with
    | none => pure ()
    | some server => do
      let stored ← call (.upsertChat (conv.chat server zeroTime ""))
      if stored then
        let latest ← syncMessages conv conv.messages (zeroTime, "")
        if latest.1 ≠ zeroTime then
          let _ ← call (.upsertChat (conv.chat server latest.1 latest.2))

/-- `processHistorySync`. -/
def processHistorySync : List Conversation → Handler Unit
  | [] => pure ()
  | conv :: rest => do
    syncConversation conv
    processHistorySync rest

/-! ## The store answers -/

/-- A call of the store runs, or returns an error and leaves the chats alone.  A
save does not write the chats. -/
inductive Answers : Chats → (q : StoreCall) → q.Answer → Chats → Prop
  | upsertChat {t : Chats} {row : ChatRow} : Answers t (.upsertChat row) true (t.upsertChat row)
  | incrementUnread {t : Chats} {jid : String} :
      Answers t (.incrementUnread jid) true (t.incrementUnread jid)
  | saveMessage {t : Chats} {m : MessageRow} {request : Option NotificationRequest}
      {result : SaveResult} : Answers t (.saveMessage m request) result t
  | upsertFailed {t : Chats} {row : ChatRow} : Answers t (.upsertChat row) false t
  | incrementFailed {t : Chats} {jid : String} : Answers t (.incrementUnread jid) false t

/-- The call came back without an error. -/
def StoreCall.Succeeded : (q : StoreCall) → q.Answer → Prop
  | .upsertChat _, ok | .incrementUnread _, ok => ok = true
  | .saveMessage _ _, result => ∃ written, result = .ok written

/-- The store, where all statements succeed. -/
def Succeeds (t : Chats) (q : StoreCall) (a : q.Answer) (t' : Chats) : Prop :=
  Answers t q a t' ∧ q.Succeeded a

end WhatsAppMcp.Bridge.Client
