import WhatsAppMcp.Bridge.Store.Schema

/-!
# What a message carries

The extraction helpers of `bridge/client/events.go`, which read the text and the
media descriptor off a message.

A message is its parts, and a part that is not set is `none`.  A getter on a
part that is not set returns the zero value, as in Go.  The file name of a media
message is made from the clock, which is the argument `stamp`.
-/

namespace WhatsAppMcp.Bridge.Client

/-! ## Messages -/

/-- `ContextInfo`, as far as the helpers read it. -/
structure ContextInfo where
  stanzaId : String
  participant : String
  deriving DecidableEq, Repr

/-- A media message; only a document has a file name. -/
structure MediaMessage where
  mimetype : String
  fileName : String
  url : String
  directPath : String
  mediaKey : List UInt8
  fileSha256 : List UInt8
  fileEncSha256 : List UInt8
  fileLength : UInt64
  contextInfo : Option ContextInfo
  deriving DecidableEq, Repr

/-- `ExtendedTextMessage`. -/
structure ExtendedText where
  text : String
  contextInfo : Option ContextInfo
  deriving DecidableEq, Repr

/-- `waE2E.Message`, as far as the helpers read it. -/
structure Message where
  conversation : String
  extendedText : Option ExtendedText
  image : Option MediaMessage
  video : Option MediaMessage
  audio : Option MediaMessage
  document : Option MediaMessage
  deriving DecidableEq, Repr

/-! ## Text -/

/-- `GetStanzaID` and `GetParticipant`. -/
def quote (info : Option ContextInfo) : String × String :=
  match info with
  | some ci => (ci.stanzaId, ci.participant)
  | none => ("", "")

/-- `extractTextContent`: the text, and the message that it quotes. -/
def extractTextContent (msg : Option Message) : String × String × String :=
  match msg with
  | none => ("", "", "")
  | some m =>
    let (text, quotedId, quotedParticipant) :=
      if m.conversation ≠ "" then (m.conversation, "", "")
      else match m.extendedText with
        | some ext => (ext.text, quote ext.contextInfo)
        | none => ("", "", "")
    if quotedId = "" then
      -- Of the media messages, the first that is set.
      match m.image.orElse fun _ => m.video.orElse fun _ => m.audio.orElse fun _ => m.document with
      | some media => (text, quote media.contextInfo)
      | none => (text, quotedId, quotedParticipant)
    else (text, quotedId, quotedParticipant)

/-! ## Media -/

/-- `strings.Contains`. -/
def containsText (text part : String) : Bool := decide (part.toList <:+: text.toList)

/-- `mimeToExt`. -/
def mimeToExt (mime default : String) : String :=
  if containsText mime "jpeg" || containsText mime "jpg" then ".jpg"
  else if containsText mime "png" then ".png"
  else if containsText mime "gif" then ".gif"
  else if containsText mime "webp" then ".webp"
  else if containsText mime "mp4" then ".mp4"
  else if containsText mime "quicktime" then ".mov"
  else default

/-- The results of `extractMediaInfo`. -/
structure MediaInfo where
  mediaType : String
  filename : String
  url : String
  mediaKey : List UInt8
  fileSha256 : List UInt8
  fileEncSha256 : List UInt8
  fileLength : UInt64
  deriving DecidableEq, Repr

/-- The results for a message without media. -/
def MediaInfo.none : MediaInfo := ⟨"", "", "", [], [], [], 0⟩

/-- The results for a media message. -/
def MediaMessage.info (media : MediaMessage) (mediaType filename : String) : MediaInfo :=
  ⟨mediaType, filename, media.url, media.mediaKey, media.fileSha256, media.fileEncSha256,
    media.fileLength⟩

/-- `extractMediaInfo`, at the time that `nowStamp` shows. -/
def extractMediaInfo (stamp : String) (msg : Option Message) : MediaInfo :=
  match msg with
  | none => .none
  | some ⟨_, _, some img, _, _, _⟩ =>
    img.info "image" ("image_" ++ stamp ++ mimeToExt img.mimetype ".jpg")
  | some ⟨_, _, none, some vid, _, _⟩ =>
    vid.info "video" ("video_" ++ stamp ++ mimeToExt vid.mimetype ".mp4")
  | some ⟨_, _, none, none, some aud, _⟩ => aud.info "audio" ("audio_" ++ stamp ++ ".ogg")
  | some ⟨_, _, none, none, none, some doc⟩ =>
    doc.info "document" (if doc.fileName = "" then "document_" ++ stamp else doc.fileName)
  | some ⟨_, _, none, none, none, none⟩ => .none

/-- The text that a chat shows of its last message. -/
def previewOf (content mediaType : String) : String :=
  if content = "" ∧ mediaType ≠ "" then "[" ++ mediaType ++ "]" else content

end WhatsAppMcp.Bridge.Client
