import WhatsAppMcp.Controller.Intake.Payload
import WhatsAppMcp.Controller.Pi.ToolEvents
import WhatsAppMcp.Lib.Decimal

/-!
# The entries of a session file

The checks that `pi/completion-index.ts` and `compaction/orphan-recovery.ts` make alike on
a line of a session file: the header, the identity and the time of an entry, the members
that its type asks for, and the records of the controller.

`JSON.parse` and `Date.parse` are parameters.  The literal of a number is its canonical
text, as `String` prints it.
-/

namespace WhatsAppMcp.Controller.Pi

open Intake (numberAt daysInMonth)

/-- `JSON.parse`, which may throw, and `Date.parse`, which may be `NaN`. -/
structure Runtime where
  parse : String → Option Json
  date : String → Option Int

/-! ## Members -/

/-- A number that is a natural number. -/
def Json.nat? : Json → Option Nat
  | .number literal =>
    if literal ≠ "" ∧ literal.toList.all Char.isDigit ∧
        (literal = "0" ∨ literal.toList.head? ≠ some '0') then some (Decimal.value literal)
    else none
  | _ => none

/-- `typeof value === 'number'`. -/
def Json.isNumber : Json → Bool
  | .number _ => true
  | _ => false

/-- `Number.isFinite`. -/
def Json.isFinite : Json → Bool
  | .number literal => literal ∉ ["Infinity", "-Infinity", "NaN"]
  | _ => false

/-- `e[key]`, if it is a string. -/
def textOf (e : Fields) (key : String) : Option String := (e.lookup key).bind Json.string?

/-- `typeof e[key] === 'string'`. -/
def isString (e : Fields) (key : String) : Bool := (textOf e key).isSome

/-- `e[key] === undefined || typeof e[key] === 'string'`. -/
def isOptionalString (e : Fields) (key : String) : Bool := (e.lookup key).isNone || isString e key

/-- `typeof content === 'string' || Array.isArray(content)`. -/
def isContent : Option Json → Bool
  | some (.string _) | some (.array _) => true
  | _ => false

/-- `e[key]` is the id of an entry that has been read. -/
def isKnown (ids : List String) (e : Fields) (key : String) : Bool := (textOf e key).any (ids.contains ·)

/-! ## Times -/

/-- `/^\d{4}-\d{2}-\d{2}T\d{2}:\d{2}:\d{2}(\.\d{1,9})?(Z|[+-]\d{2}:\d{2})$/`. -/
def isDateTime (text : List Char) : Bool :=
  match (afterPlaces dateTimePlaces text).map afterFraction with
  | none => false
  | some zone => zone = ['Z'] ||
      afterPlaces [.among ['+', '-'], .digit, .digit, .among [':'], .digit, .digit] zone = some []

/-- `validTime`, on a string. -/
def validTimeText (env : Runtime) (text : String) : Bool :=
  isDateTime text.toList && (env.date text).isSome &&
    let month := numberAt text.toList 5 2
    let day := numberAt text.toList 8 2
    1 ≤ month && month ≤ 12 && 1 ≤ day && day ≤ daysInMonth (numberAt text.toList 0 4) month &&
      numberAt text.toList 11 2 < 24 && numberAt text.toList 14 2 < 60 &&
      numberAt text.toList 17 2 < 60

/-- `validTime`. -/
def validTime (env : Runtime) (value : Option Json) : Bool :=
  (value.bind Json.string?).any (validTimeText env)

/-! ## Entries -/

/-- `types`. -/
def entryTypes : List String :=
  ["message", "model_change", "thinking_level_change", "compaction", "context_edit",
    "branch_summary", "custom", "custom_message", "label", "session_info", "usage"]

/-- The header of the session. -/
def isHeader (env : Runtime) (binding : SessionBinding) (e : Fields) : Bool :=
  textOf e "type" = some "session" && (e.lookup "version").bind Json.nat? = some 3 &&
    textOf e "id" = some binding.sessionId && isString e "cwd" && validTime env (e.lookup "timestamp")

/-- `e.parentId` is null, or the id of an entry that has been read. -/
def parentKnown (ids : List String) (e : Fields) : Bool :=
  match e.lookup "parentId" with
  | some .null => true
  | some (.string parent) => ids.contains parent
  | _ => false

/-- The type and the id of an entry, with a new id, a parent and a time. -/
def identified (env : Runtime) (ids : List String) (e : Fields) : Option (String × String) :=
  match textOf e "type", textOf e "id" with
  | some type, some id =>
    if entryTypes.contains type && id ≠ "" && !ids.contains id && parentKnown ids e &&
        validTime env (e.lookup "timestamp") then some (type, id)
    else none
  | _, _ => none

/-- The members of `message`. -/
def isMessage (e : Fields) : Bool :=
  match (e.lookup "message").bind Json.object? with
  | none => false
  | some m => (textOf m "role").any (· ≠ "") && (m.lookup "timestamp").any Json.isFinite

/-- `replacement` of a `context_edit`. -/
def isReplacement : Option Json → Bool
  | some .null => true
  | some (.object r) => isContent (r.lookup "content")
  | _ => false

/-- `e.usage && typeof e.usage === 'object'`. -/
def isUsage : Option Json → Bool
  | some (.object _) | some (.array _) => true
  | _ => false

/-- The members that the type of an entry asks for.  What `tokensBefore` of a compaction
must be differs between the readers. -/
def shaped (tokens : Json → Bool) (ids : List String) (e : Fields) (type : String) : Bool :=
  if type = "message" then isMessage e
  else if type = "compaction" then
    isString e "summary" && isKnown ids e "firstKeptEntryId" && (e.lookup "tokensBefore").any tokens
  else if type = "branch_summary" then isString e "summary" && isKnown ids e "fromId"
  else if type = "context_edit" then
    isKnown ids e "targetId" && isReplacement (e.lookup "replacement")
  else if type = "model_change" then isString e "provider" && isString e "modelId"
  else if type = "thinking_level_change" then isString e "thinkingLevel"
  else if type = "custom_message" then
    isString e "customType" && isContent (e.lookup "content") &&
      (e.lookup "display").any fun v => v.isBool true || v.isBool false
  else if type = "usage" then
    isString e "kind" && isString e "provider" && isString e "model" && isUsage (e.lookup "usage")
  else if type = "session_info" then isOptionalString e "name"
  else if type = "label" then isKnown ids e "targetId" && isOptionalString e "label"
  else true

/-! ## Records of the controller -/

/-- `BINDING_TYPE`. -/
def bindingType : String := "whatsapp.controller.binding.v1"

/-- `COMPLETION_TYPE`. -/
def completionType : String := "whatsapp.controller.completed.v1"

/-- `MUTATION_TYPE`. -/
def mutationType : String := "whatsapp.controller.mutation.v1"

/-- `checked(SessionBindingSchema, value, …)`. -/
def checkedBinding (value : Option Json) : Option SessionBinding := do
  let fields ← value.bind Json.object?
  let canonicalChatId ← textOf fields "canonicalChatId"
  let sessionId ← textOf fields "sessionId"
  let sessionFile ← textOf fields "sessionFile"
  if exactKeys fields ["canonicalChatId", "sessionId", "sessionFile"] &&
      chatJidSchema canonicalChatId && 1 ≤ sessionId.length && sessionId.length ≤ 128 &&
      1 ≤ sessionFile.length && sessionFile.length ≤ 4096 then
    some ⟨canonicalChatId, sessionId, sessionFile⟩
  else none

/-- `completion` of a marker. -/
inductive Completion where
  | turn
  | contextOnly
  deriving DecidableEq, Repr

def Completion.ofText : String → Option Completion
  | "turn" => some .turn
  | "context_only" => some .contextOnly
  | _ => none

/-- `CompletionMarker`, as the file has it. -/
structure StoredMarker where
  eventId : String
  eventFingerprint : String
  canonicalChatId : String
  chatSequence : Nat
  completion : Completion
  completedAt : String
  confirmedSends : List ConfirmedSend
  deriving DecidableEq, Repr

/-- `EventFingerprintSchema`. -/
def fingerprintSchema (text : String) : Bool :=
  text.length = 74 && "sha256:v1:".toList.isPrefixOf text.toList &&
    (text.toList.drop 10).all fun c => c.isDigit || ('a' ≤ c && c ≤ 'f')

/-- One element of `confirmedSends`. -/
def checkedSend (value : Json) : Option ConfirmedSend := do
  let fields ← value.object?
  let destination ← textOf fields "destination"
  let messageId ← textOf fields "messageId"
  if exactKeys fields ["destination", "messageId"] && chatJidSchema destination &&
      messageIdSchema messageId then some ⟨destination, messageId⟩
  else none

/-- `checked(CompletionMarkerSchema, value, …)`. -/
def checkedMarker (value : Option Json) : Option StoredMarker := do
  let fields ← value.bind Json.object?
  let version ← (fields.lookup "version").bind Json.nat?
  let eventId ← textOf fields "eventId"
  let eventFingerprint ← textOf fields "eventFingerprint"
  let canonicalChatId ← textOf fields "canonicalChatId"
  let chatSequence ← (fields.lookup "chatSequence").bind Json.nat?
  let completion ← (textOf fields "completion").bind Completion.ofText
  let completedAt ← textOf fields "completedAt"
  let items ← (fields.lookup "confirmedSends").bind Json.array?
  let confirmedSends ← items.mapM checkedSend
  if exactKeys fields ["version", "eventId", "eventFingerprint", "canonicalChatId", "chatSequence",
        "completion", "completedAt", "confirmedSends"] &&
      version = 1 && Bridge.isOpaqueId eventId && fingerprintSchema eventFingerprint &&
      chatJidSchema canonicalChatId && 1 ≤ chatSequence && chatSequence ≤ maxSafeInteger &&
      timestampSchema completedAt && confirmedSends.Nodup then
    some ⟨eventId, eventFingerprint, canonicalChatId, chatSequence, completion, completedAt,
      confirmedSends⟩
  else none

end WhatsAppMcp.Controller.Pi
