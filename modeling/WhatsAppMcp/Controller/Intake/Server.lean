import WhatsAppMcp.Controller.Intake.Payload
import WhatsAppMcp.Controller.Redis.Accept

/-!
# The intake server

`handle` of `intake/server.ts`, in two parts: `admitted` is what comes before
`store.accept`, and `answerOf` the reply to its answer.

A request is its headers and its decoded body.  What the server meets while it
handles one is `Conditions`: whether it is ready before and after the body is
read, what reading the body comes to, and whether the signature is the right one.

* `answerOf_success`: a reply with a status of success tells that the store
  answered `accepted` or `duplicate`.
-/

namespace WhatsAppMcp.Controller.Intake

open Redis (Acceptance)

/-! ## Requests -/

/-- What `handle` reads of a request. -/
structure Request where
  url : String
  method : String
  rawHeaders : List (String × String)
  body : Option Wire

/-- `singleHeader`: the value of a header that is there exactly once. -/
def Request.singleHeader (req : Request) (name : String) : Option String :=
  match req.rawHeaders.filter (fun header => header.1.toLower = name) with
  | [header] => some header.2
  | _ => none

/-- `req.headers[name] !== undefined`. -/
def Request.hasHeader (req : Request) (name : String) : Bool :=
  req.rawHeaders.any fun header => header.1.toLower = name

/-- `\s` at both sides of the `;` of a media type. -/
def isSpace (c : Char) : Bool := c.isWhitespace || c = '\u000B' || c = '\u000C' || c = '\u00A0'

/-- `/^application\/json(?:\s*;\s*charset=utf-8)?$/i`. -/
def jsonType (type : String) : Bool :=
  let text := type.toLower.toList
  let json := "application/json".toList
  text = json ||
    (json.isPrefixOf text &&
      match (text.drop json.length).dropWhile isSpace with
      | ';' :: rest => rest.dropWhile isSpace = "charset=utf-8".toList
      | _ => false)

/-- `/^(0|[1-9]\d*)$/` and the number. -/
def contentLength (text : String) : Option Nat :=
  let digits := text.toList
  if digits ≠ [] ∧ digits.all Char.isDigit ∧ (digits = ['0'] ∨ digits.head? ≠ some '0') then
    some (Nat.ofDigitChars 10 digits 0)
  else none

/-- The settings of the server. -/
structure HttpConfig where
  webhookPath : String
  maxInflight : Nat
  maxBodyBytes : Nat

/-- What the server meets while it handles a request. -/
structure Conditions where
  /-- `ready()`, before the body is read and after. -/
  readyBefore : Bool
  readyAfter : Bool
  stopping : Bool
  active : Nat
  /-- The error of `readBody`. -/
  bodyError : Option ErrorClass
  /-- `verify` does not throw. -/
  verified : Bool

/-! ## Replies -/

/-- The status of an error. -/
def statusOf : ErrorClass → Nat
  | .signatureInvalid => 401
  | .policyDenied => 403
  | .bodyTooLarge => 413
  | .requestTimeout => 408
  | .identityConflict => 409
  | .storeUnavailable | .notReady | .intakeClosed => 503
  | .internalFailed => 500
  | _ => 400

/-- A reply without the store: one with a status of its own, or an error with that of its class. -/
inductive Refusal where
  /-- 404 -/
  | notFound
  /-- 405 -/
  | methodNotAllowed
  /-- 503 -/
  | closed
  /-- 415 -/
  | unsupportedMediaType
  | error (code : ErrorClass)
  deriving DecidableEq, Repr

/-- The status of a reply to an answer of the store. -/
def answerOf : Acceptance → Nat
  | .accepted => 202
  | .duplicate => 200
  | .conflict => statusOf .identityConflict
  | .unavailable => statusOf .storeUnavailable

/-! ## Handling -/

/-- The checks of `handle` on the headers of a request that it takes in. -/
def checkHeaders (http : HttpConfig) (req : Request) : Except Refusal String :=
  let type := req.singleHeader "content-type"
  let encoding := req.singleHeader "content-encoding"
  if !type.any jsonType || (encoding.isSome && encoding ≠ some "identity") ||
      (req.hasHeader "content-encoding" && encoding.isNone) then
    .error .unsupportedMediaType
  else
    match req.singleHeader "content-length" with
    | some text =>
      match contentLength text with
      | none => .error (.error .bodyInvalid)
      | some length =>
        if length > maxSafeInteger then .error (.error .bodyInvalid)
        else if length > http.maxBodyBytes then .error (.error .bodyTooLarge)
        else identify req
    | none => identify req
where
  /-- The headers of the signature and the identity of the request. -/
  identify (req : Request) : Except Refusal String :=
    match req.singleHeader "x-webhook-timestamp", req.singleHeader "x-webhook-signature-v2",
      req.singleHeader "x-request-id" with
    | some _, some _, some requestId =>
      if Bridge.isOpaqueId requestId then .ok requestId else .error (.error .signatureInvalid)
    | _, _, _ => .error (.error .signatureInvalid)

/-- The checks of `handle` from the body on. -/
def admittedBody (policy : AdmissionPolicy) (cond : Conditions) (requestId : String)
    (body : Option Wire) : Except Refusal NotificationV2 :=
  match cond.bodyError with
  | some code => .error (.error code)
  | none =>
    if !cond.verified then .error (.error .signatureInvalid)
    else
      match parsePayload policy body with
      | .error code => .error (.error code)
      | .ok event =>
        if requestId ≠ event.eventId then .error (.error .payloadInvalid)
        else if !cond.readyAfter then
          .error (.error (if cond.stopping then .intakeClosed else .notReady))
        else .ok event

/-- `handle` up to `store.accept`, for a request that is not `GET /ready`: the event that the
store is called with. -/
def admitted (http : HttpConfig) (policy : AdmissionPolicy) (cond : Conditions) (req : Request) :
    Except Refusal NotificationV2 :=
  if req.url ≠ http.webhookPath then .error .notFound
  else if req.method ≠ "POST" then .error .methodNotAllowed
  else if !cond.readyBefore || http.maxInflight ≤ cond.active then .error .closed
  else
    match checkHeaders http req with
    | .error refusal => .error refusal
    | .ok requestId => admittedBody policy cond requestId req.body

/-! ## Replies of success -/

/-- A status of success tells that the event is with the store. -/
theorem answerOf_success {answer : Acceptance} (h : answerOf answer < 400) :
    answer = .accepted ∨ answer = .duplicate := by
  cases answer with
  | accepted => exact Or.inl rfl
  | duplicate => exact Or.inr rfl
  | conflict => exact absurd h (by decide)
  | unavailable => exact absurd h (by decide)

/-- An event that reaches the store passed `parsePayload`. -/
theorem admitted_parse {http : HttpConfig} {policy : AdmissionPolicy} {cond : Conditions}
    {req : Request} {event : NotificationV2} (h : admitted http policy cond req = .ok event) :
    parsePayload policy req.body = .ok event := by
  unfold admitted admittedBody at h
  split at h
  · cases h
  split at h
  · cases h
  split at h
  · cases h
  split at h
  · cases h
  split at h
  · cases h
  split at h
  · cases h
  split at h
  · cases h
  · next parsed hparse =>
    split at h
    · cases h
    split at h
    · cases h
    · rwa [← Except.ok.inj h]

end WhatsAppMcp.Controller.Intake
