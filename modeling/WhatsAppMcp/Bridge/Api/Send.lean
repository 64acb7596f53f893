import WhatsAppMcp.Bridge.Values

/-!
# The send requests

`bridge/api/jid.go`, `SendMessage` and `SendMedia` of `bridge/api/handlers_send.go`, and
`SendBridgeMessage` of `bridge/client/send.go`.

`types.JID` is not part of this repository.  `JidType` is what the handlers use of it, and
`JidType.Faithful` what they rely on: an identity that is parsed prints as the text that it
was parsed from.  The upload of a media file is a function of the form.

`sendMessage_targets` and `sendMedia_targets` say where a request goes.
-/

namespace WhatsAppMcp.Bridge.Api

/-! ## Identities -/

/-- `normaliseJID`. -/
def normaliseJid (s : String) : String :=
  if s.toList.contains '@' then s
  else
    let digits := s.toList.filter Char.isDigit
    if digits.isEmpty then s else String.ofList digits ++ "@s.whatsapp.net"

/-- What the handlers use of `types.JID`: `ParseJID`, `String`, and the comparison of the
server with `GroupServer` and `DefaultUserServer`. -/
structure JidType where
  Jid : Type
  parse : String → Option Jid
  text : Jid → String
  isGroup : Jid → Bool
  isDefaultUser : Jid → Bool

/-- An identity of the API that is parsed prints as its text. -/
structure JidType.Faithful (J : JidType) : Prop where
  text_parse : ∀ s jid, isChatJid s = true → J.parse s = some jid → J.text jid = s

/-! ## Messages -/

/-- `waE2E.ContextInfo`, as far as the handlers fill it. -/
structure ContextInfo where
  stanzaId : Option String
  participant : Option String
  mentionedJid : List String
  expiration : Option Nat
  deriving DecidableEq, Repr

/-- `waE2E.Message`, as far as the handlers fill it; `Upload` is what an upload returns. -/
inductive OutMessage (Upload : Type) where
  | conversation (text : String)
  | extendedText (text : String) (contextInfo : Option ContextInfo)
  | media (upload : Upload) (expiration : Option Nat)

variable {Upload : Type}

/-- `buildTextMessage`. -/
def buildTextMessage (text quotedId quotedParticipant : String) (mentions : List String)
    (ephemeralExpiry : Nat) : OutMessage Upload :=
  if quotedId ≠ "" ∨ mentions ≠ [] ∨ 0 < ephemeralExpiry then
    .extendedText text (some {
      stanzaId := if quotedId ≠ "" then some quotedId else none
      participant := if quotedId ≠ "" then some quotedParticipant else none
      mentionedJid := mentions
      expiration := if 0 < ephemeralExpiry then some ephemeralExpiry else none })
  else .conversation text

/-! ## Requests and answers -/

/-- `SendRequest`; the recipient is `To`. -/
structure SendRequest where
  recipient : String
  text : String
  quotedMessageId : String
  quotedParticipant : String
  mentions : List String
  deriving DecidableEq, Repr

/-- The form values and the file of `SendMedia`; the recipient is `to`. -/
structure MediaForm where
  recipient : String
  caption : String
  mediaType : String
  ptt : String
  file : Option String
  deriving DecidableEq, Repr

/-- What the handler writes: `writeError`, or the response with status 200. -/
inductive SendAnswer where
  | error (status : Nat) (message code : String)
  | ok (messageId : String)
  deriving DecidableEq, Repr

/-- What comes of a request: the answer, and the identity and the message that were handed to
`SendMessage` of the messenger. -/
structure SendOutcome (J : JidType) (Upload : Type) where
  answer : SendAnswer
  sent : Option (J.Jid × OutMessage Upload)

/-- What the handlers meet. -/
structure SendEnv (J : JidType) (Upload : Type) where
  connected : Bool
  /-- `getEphemeralExpiry` of a group. -/
  groupExpiry : J.Jid → Nat
  /-- The store and the messenger are there. -/
  available : Bool
  messageId : String
  /-- `resolveOutboundChat`. -/
  resolveOutbound : J.Jid → Option J.Jid
  /-- `RegisterOutboundOrigins` with these identities. -/
  registers : String → List String → Bool
  /-- The id in the response of the messenger, where it does not fail. -/
  response : J.Jid → OutMessage Upload → Option String
  /-- `SaveUploadedFile`, the type of the file, and `Upload`: the code of the failure, or the
  message. -/
  upload : MediaForm → Except String Upload

variable {J : JidType}

/-! ## Sending -/

/-- `getEphemeralExpiry`. -/
def ephemeralExpiry (env : SendEnv J Upload) (jid : J.Jid) : Nat :=
  if J.isGroup jid then env.groupExpiry jid else 0

/-- The identities that `SendBridgeMessage` registers. -/
def outboundAliases (env : SendEnv J Upload) (chat : J.Jid) : Option (List String) :=
  if J.isDefaultUser chat then
    (env.resolveOutbound chat).map fun lid => [J.text chat, J.text lid]
  else some [J.text chat]

/-- `SendBridgeMessage`, with what it hands to the messenger. -/
def sendBridgeMessage (env : SendEnv J Upload) (chat : J.Jid) (msg : OutMessage Upload) :
    Option String × Option (J.Jid × OutMessage Upload) :=
  if !env.available then (none, none)
  else if env.messageId = "" then (none, none)
  else
    match outboundAliases env chat with
    | none => (none, none)
    | some aliases =>
      if env.registers env.messageId aliases then (env.response chat msg, some (chat, msg))
      else (none, none)

/-- The answer to a message that was built. -/
def deliverMessage (env : SendEnv J Upload) (jid : J.Jid) (msg : OutMessage Upload) :
    SendOutcome J Upload :=
  let (response, sent) := sendBridgeMessage env jid msg
  match response with
  | none => ⟨.error 500 "send failed" "SEND_ERROR", sent⟩
  | some messageId => ⟨.ok messageId, sent⟩

/-- The request is refused. -/
def refuse (status : Nat) (message code : String) : SendOutcome J Upload :=
  ⟨.error status message code, none⟩

/-- `SendMessage`; `none` is a body that does not decode. -/
def sendMessage (env : SendEnv J Upload) (body : Option SendRequest) : SendOutcome J Upload :=
  if !env.connected then refuse 503 "not connected to WhatsApp" "NOT_CONNECTED"
  else
    match body with
    | none => refuse 400 "invalid JSON body" "INVALID_JSON"
    | some req =>
      let toJid := normaliseJid req.recipient
      if req.recipient = "" then refuse 400 "to is required" "MISSING_FIELD"
      else if !isChatJid toJid then refuse 400 "invalid JID format" "INVALID_JID"
      else if req.text = "" then refuse 400 "text is required" "MISSING_FIELD"
      else
        match J.parse toJid with
        | none => refuse 400 "cannot parse JID" "INVALID_JID"
        | some jid =>
          deliverMessage env jid (buildTextMessage req.text req.quotedMessageId
            req.quotedParticipant req.mentions (ephemeralExpiry env jid))

/-- `SendMedia`; `none` is a body that is no form. -/
def sendMedia (env : SendEnv J Upload) (body : Option MediaForm) : SendOutcome J Upload :=
  if !env.connected then refuse 503 "not connected to WhatsApp" "NOT_CONNECTED"
  else
    match body with
    | none => refuse 400 "expected multipart/form-data" "INVALID_FORM"
    | some form =>
      let toJid := normaliseJid form.recipient
      if form.recipient = "" then refuse 400 "to is required" "MISSING_FIELD"
      else if !isChatJid toJid then refuse 400 "invalid JID format" "INVALID_JID"
      else
        match J.parse toJid with
        | none => refuse 400 "cannot parse JID" "INVALID_JID"
        | some jid =>
          if form.file = none then refuse 400 "file upload is required" "MISSING_FIELD"
          else
            match env.upload form with
            | .error message => refuse 500 message "UPLOAD_ERROR"
            | .ok upload =>
              let expiry := ephemeralExpiry env jid
              deliverMessage env jid (.media upload (if 0 < expiry then some expiry else none))

/-! ## Where a request goes -/

/-- The request is refused with nothing sent, or it goes to this identity. -/
def SendOutcome.Targets (o : SendOutcome J Upload) (destination : String) : Prop :=
  ((∃ status message code, o.answer = .error status message code) ∧ o.sent = none) ∨
    ∃ jid msg, o.sent = some (jid, msg) ∧ J.text jid = destination

theorem refuse_targets {status : Nat} {message code destination : String} :
    (refuse status message code : SendOutcome J Upload).Targets destination :=
  Or.inl ⟨⟨status, message, code, rfl⟩, rfl⟩

theorem sendBridgeMessage_sent (env : SendEnv J Upload) (chat : J.Jid) (msg : OutMessage Upload) :
    sendBridgeMessage env chat msg = (none, none) ∨
      (sendBridgeMessage env chat msg).2 = some (chat, msg) := by
  unfold sendBridgeMessage
  split
  · exact Or.inl rfl
  split
  · exact Or.inl rfl
  split
  · exact Or.inl rfl
  split
  · exact Or.inr rfl
  · exact Or.inl rfl

/-- A message goes nowhere or to its identity. -/
theorem deliverMessage_targets (env : SendEnv J Upload) (jid : J.Jid) (msg : OutMessage Upload) :
    (deliverMessage env jid msg).Targets (J.text jid) := by
  unfold deliverMessage
  rcases sendBridgeMessage_sent env jid msg with hnone | hsent
  · rw [hnone]
    exact refuse_targets
  · right
    refine ⟨jid, msg, ?_, rfl⟩
    rw [← hsent]
    simp only
    split <;> rfl

theorem sendMessage_targets (hJ : J.Faithful) (env : SendEnv J Upload) (req : SendRequest) :
    (sendMessage env (some req)).Targets (normaliseJid req.recipient) := by
  unfold sendMessage
  split
  · exact refuse_targets
  simp only
  split
  · exact refuse_targets
  split
  · exact refuse_targets
  · next hvalid =>
    split
    · exact refuse_targets
    split
    · exact refuse_targets
    · next jid hparse =>
      have htext := hJ.text_parse _ _ (by simpa using hvalid) hparse
      rw [← htext]
      exact deliverMessage_targets env jid _

theorem sendMedia_targets (hJ : J.Faithful) (env : SendEnv J Upload) (form : MediaForm) :
    (sendMedia env (some form)).Targets (normaliseJid form.recipient) := by
  unfold sendMedia
  split
  · exact refuse_targets
  simp only
  split
  · exact refuse_targets
  split
  · exact refuse_targets
  · next hvalid =>
    split
    · exact refuse_targets
    · next jid hparse =>
      split
      · exact refuse_targets
      split
      · exact refuse_targets
      · have htext := hJ.text_parse _ _ (by simpa using hvalid) hparse
        rw [← htext]
        exact deliverMessage_targets env jid _

/-- A request that sends has an identity that the API admits. -/
theorem sendMessage_valid {env : SendEnv J Upload} {req : SendRequest}
    (h : (sendMessage env (some req)).sent ≠ none) : isChatJid (normaliseJid req.recipient) = true := by
  by_contra hinvalid
  refine h ?_
  unfold sendMessage
  split
  · rfl
  simp only
  split
  · rfl
  · rw [if_pos (by simpa using hinvalid)]
    rfl

theorem sendMedia_valid {env : SendEnv J Upload} {form : MediaForm}
    (h : (sendMedia env (some form)).sent ≠ none) : isChatJid (normaliseJid form.recipient) = true := by
  by_contra hinvalid
  refine h ?_
  unfold sendMedia
  split
  · rfl
  simp only
  split
  · rfl
  · rw [if_pos (by simpa using hinvalid)]
    rfl

end WhatsAppMcp.Bridge.Api
