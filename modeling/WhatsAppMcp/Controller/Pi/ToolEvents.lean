import WhatsAppMcp.Controller.Schemas

/-!
# The tool events of the model host

What `pi/tool-journal-extension.ts` reads off a `tool_call` and a `tool_result`:
whether the tool mutates, where the mutation goes, whether the call may quote or
mention anybody, and which message id a successful result carries.

A value of type `unknown` is a `Json`; `undefined` is an absent field, or `null`
where the code treats the two alike.  The fields of an object are in order and
have distinct names.  `JSON.parse` is a parameter.
-/

namespace WhatsAppMcp.Controller.Pi

/-! ## Values -/

/-- A JSON value; a number is its literal. -/
inductive Json where
  | null
  | bool (value : Bool)
  | number (literal : String)
  | string (text : String)
  | array (items : List Json)
  | object (fields : List (String × Json))

/-- The fields of an object. -/
abbrev Fields := List (String × Json)

/-- `object`: the value, if it is an object and not an array. -/
def Json.object? : Json → Option Fields
  | .object fields => some fields
  | _ => none

/-- `typeof value === 'string'`. -/
def Json.string? : Json → Option String
  | .string text => some text
  | _ => none

def Json.array? : Json → Option (List Json)
  | .array items => some items
  | _ => none

/-- `value === text`. -/
def Json.isText (text : String) : Json → Bool
  | .string other => other = text
  | _ => false

/-- `value === b`. -/
def Json.isBool (b : Bool) : Json → Bool
  | .bool other => other = b
  | _ => false

/-- `exactKeys`. -/
def exactKeys (fields : Fields) (expected : List String) : Bool :=
  fields.length = expected.length && expected.all fun key => (fields.lookup key).isSome

/-- `withinDepth`: arrays and objects are nested at most this deep. -/
def withinDepth : Nat → Json → Bool
  | n + 1, .array items => items.all (withinDepth n)
  | n + 1, .object fields => fields.all fun field => withinDepth n field.2
  | 0, .array _ | 0, .object _ => false
  | _, _ => true

/-- The white space and line terminators that `trim` drops. -/
def isTrimmed (c : Char) : Bool :=
  c.toNat ∈ [9, 10, 11, 12, 13, 32, 160, 5760, 8232, 8233, 8239, 8287, 12288, 65279] ||
    (8192 ≤ c.toNat && c.toNat ≤ 8202)

/-! ## Tools -/

/-- The tools that mutate. -/
inductive Tool where
  | sendMessage
  | sendGroupMessage
  | sendAutoMessage
  | sendMedia
  | sendReaction
  | editMessage
  | revokeMessage
  deriving DecidableEq, Repr

def Tool.all : List Tool :=
  [.sendMessage, .sendGroupMessage, .sendAutoMessage, .sendMedia, .sendReaction, .editMessage,
    .revokeMessage]

def Tool.name : Tool → String
  | .sendMessage => "send_message"
  | .sendGroupMessage => "send_group_message"
  | .sendAutoMessage => "send_auto_message"
  | .sendMedia => "send_media"
  | .sendReaction => "send_reaction"
  | .editMessage => "edit_message"
  | .revokeMessage => "revoke_message"

/-- `fields`: the argument that names the destination. -/
def Tool.field : Tool → String
  | .sendMessage => "to"
  | .sendGroupMessage => "jid"
  | .sendAutoMessage => "jid"
  | .sendMedia => "to"
  | .sendReaction => "chat_jid"
  | .editMessage => "chat_jid"
  | .revokeMessage => "chat_jid"

/-- `WHATSAPP_SERVER`. -/
def whatsappServer : String := "whatsapp_session_controller"

/-- `ADAPTER_WHATSAPP_SERVER`. -/
def adapterWhatsappServer : String := whatsappServer ++ "_"

/-- `toolOf`: the mutating tool of this name. -/
def toolOf (name : String) : Option Tool :=
  Tool.all.find? fun tool => name = "mcp__" ++ whatsappServer ++ "__" ++ tool.name

/-! ## Events -/

/-- `ToolCallEvent`. -/
structure ToolCallEvent where
  toolCallId : String
  toolName : String
  input : Fields

/-- `ToolResultEvent`. -/
structure ToolResultEvent where
  toolCallId : String
  toolName : String
  input : Fields
  content : Json
  details : Json
  isError : Bool

/-- `ToolInfo`, as far as `verifySource` reads it. -/
structure ToolInfo where
  name : String
  path : String
  source : String

/-- `MCP_ADAPTER_SOURCE_PATH`. -/
def mcpAdapterSourcePath : String := "<inline:mcp>"

/-- `verifySource`: the one tool of this name is from the adapter. -/
def verifySource (tools : List ToolInfo) (toolName : String) : Bool :=
  match tools.filter fun tool => tool.name = toolName with
  | [info] => info.path = mcpAdapterSourcePath && info.source = "inline"
  | _ => false

/-! ## Quotes and mentions -/

/-- `attributionTools`. -/
def Tool.attributes : Tool → Bool
  | .sendMessage | .sendGroupMessage | .sendAutoMessage => true
  | _ => false

/-- `participantIdentity` with `canonicalParticipantIdentity`. -/
def canonicalParticipant (text : String) : Option String :=
  if 128 < text.utf8ByteSize ∨ Bridge.isParticipantJid text = false then none else some text

/-- A device number after the user, `(?::\d+)?`. -/
def dropDevice : List Char → List Char
  | ':' :: rest => if rest.head?.any Char.isDigit then rest.dropWhile Char.isDigit else ':' :: rest
  | rest => rest

/-- `participantIdentity` with `trustedParticipantAlias`: the device number goes. -/
def trustedParticipant (text : String) : Option String :=
  let user := text.toList.takeWhile Char.isDigit
  let identity := String.ofList (user ++ dropDevice (text.toList.dropWhile Char.isDigit))
  if 128 < text.utf8ByteSize ∨ Bridge.isParticipantJid identity = false then none else some identity

/-- `emptyQuoteField`. -/
def emptyQuoteField : Option Json → Bool
  | none | some .null => true
  | some value => value.isText ""

/-- `permitsParticipantAttribution`. -/
def permitsParticipantAttribution (tool : Tool) (input : Fields) (event : NotificationV2) : Bool :=
  if !tool.attributes then true
  else if !(emptyQuoteField (input.lookup "quoted_message_id") &&
      emptyQuoteField (input.lookup "quoted_participant")) then false
  else
    match input.lookup "mentions" with
    | none | some .null => true
    | some (.array []) => true
    | some (.array [.string text]) =>
      match canonicalParticipant text with
      | none => false
      | some mention => trustedParticipant event.senderJid = some mention ||
          event.senderAltJid.bind trustedParticipant = some mention
    | _ => false

/-! ## Destinations -/

/-- `canNormalize`. -/
def Tool.normalizes : Tool → Bool
  | .sendMessage | .sendAutoMessage | .sendMedia => true
  | _ => false

/-- `mutationDestination`; `none` where it throws. -/
def mutationDestination (tool : Tool) (input : Fields) : Option String := do
  let value ← (← input.lookup tool.field).string?
  let digits := value.toList.filter Char.isDigit
  let actual := if tool.normalizes && !value.toList.contains '@' && !digits.isEmpty then
      String.ofList digits ++ "@s.whatsapp.net"
    else value
  if chatJidSchema actual then some actual else none

/-! ## Confirmations -/

/-- The text of a block `{ type: 'text', text }`. -/
def blockText (block : Json) : Option String := do
  let fields ← block.object?
  if exactKeys fields ["text", "type"] ∧ (fields.lookup "type").any (Json.isText "text") then
    (← fields.lookup "text").string?
  else none

/-- The string that the tool returned, where the envelope, its structured content
and the visible content agree on it. -/
def resultText (event : ToolResultEvent) (tool : Tool) : Option String := do
  let details ← event.details.object?
  let envelope ← (← details.lookup "mcpResult").object?
  if event.isError ∨ !(details.lookup "server").any (Json.isText adapterWhatsappServer) ∨
      !(details.lookup "tool").any (Json.isText tool.name) ∨ (details.lookup "error").isSome ∨
      (details.lookup "outputGuard").isSome then none
  else if !(envelope.all fun field =>
      ["content", "structuredContent", "isError", "_meta"].contains field.1) ∨
      !(envelope.lookup "isError").all (Json.isBool false) then none
  else
    match ← (← envelope.lookup "content").array? with
    | [block] =>
      let text ← blockText block
      let structured ← (← envelope.lookup "structuredContent").object?
      let result ← (← structured.lookup "result").string?
      let visible ← blockText (← (← event.content.array?).head?)
      if exactKeys structured ["result"] ∧ text = result ∧ visible = text then some result else none
    | _ => none

/-- The message id in the payload of a successful tool. -/
def payloadMessage (payload : Json) : Option String := do
  let fields ← payload.object?
  let id ← (← fields.lookup "message_id").string?
  if withinDepth 1 payload ∧ exactKeys fields ["message_id", "success"] ∧
      (fields.lookup "success").any (Json.isBool true) ∧ messageIdSchema id ∧
      (id.toList.any fun c => !isTrimmed c) ∧ id.utf8ByteSize ≤ 512 then some id
  else none

/-- `confirmedMessage`: the message id that a successful result of the tool carries. -/
def confirmedMessage (parse : String → Option Json) (event : ToolResultEvent) (tool : Tool) :
    Option String := do
  let raw ← resultText event tool
  if raw.utf8ByteSize < 2 ∨ 4096 < raw.utf8ByteSize then none
  else payloadMessage (← parse raw)

/-- The result is no error, and what it returned says success with this message id. -/
structure Reports (parse : String → Option Json) (event : ToolResultEvent) (messageId : String) :
    Prop where
  success : event.isError = false
  payload : ∃ raw fields, parse raw = some (.object fields) ∧
    fields.lookup "success" = some (.bool true) ∧
    fields.lookup "message_id" = some (.string messageId)

theorem resultText_success {event : ToolResultEvent} {tool : Tool} {raw : String}
    (h : resultText event tool = some raw) : event.isError = false := by
  cases herror : event.isError with
  | false => rfl
  | true => simp [resultText, herror] at h

theorem Json.object?_eq_some {value : Json} {fields : Fields} (h : value.object? = some fields) :
    value = .object fields := by
  cases value <;> cases h
  rfl

theorem Json.string?_eq_some {value : Json} {text : String} (h : value.string? = some text) :
    value = .string text := by
  cases value <;> cases h
  rfl

theorem Json.eq_bool_of_isBool {value : Option Json} {b : Bool}
    (h : value.any (Json.isBool b) = true) : value = some (.bool b) := by
  cases value with
  | none => cases h
  | some value =>
    cases value with
    | bool other => simpa [Json.isBool] using h
    | _ => cases h

theorem payloadMessage_fields {payload : Json} {id : String} (h : payloadMessage payload = some id) :
    ∃ fields, payload = .object fields ∧ fields.lookup "success" = some (.bool true) ∧
      fields.lookup "message_id" = some (.string id) := by
  unfold payloadMessage at h
  simp only [Option.bind_eq_bind, Option.bind_eq_some_iff] at h
  obtain ⟨fields, hfields, value, hvalue, text, htext, h⟩ := h
  split at h
  · next hgood =>
    have hid := Option.some.inj h
    subst hid
    refine ⟨fields, Json.object?_eq_some hfields, Json.eq_bool_of_isBool hgood.2.2.1, ?_⟩
    rw [hvalue, Json.string?_eq_some htext]
  · cases h

theorem confirmedMessage_reports {parse : String → Option Json} {event : ToolResultEvent}
    {tool : Tool} {messageId : String} (h : confirmedMessage parse event tool = some messageId) :
    Reports parse event messageId := by
  unfold confirmedMessage at h
  simp only [Option.bind_eq_bind, Option.bind_eq_some_iff] at h
  obtain ⟨raw, hraw, h⟩ := h
  split at h
  · cases h
  · obtain ⟨payload, hparse, hpayload⟩ := Option.bind_eq_some_iff.mp h
    obtain ⟨fields, rfl, hsuccess, hid⟩ := payloadMessage_fields hpayload
    exact ⟨resultText_success hraw, raw, fields, hparse, hsuccess, hid⟩

end WhatsAppMcp.Controller.Pi
