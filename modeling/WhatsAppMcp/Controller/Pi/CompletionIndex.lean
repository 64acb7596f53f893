import WhatsAppMcp.Controller.Pi.SessionFile
import WhatsAppMcp.Lib.LineReader

/-!
# The evidence of a session file

`readEvidence` of `pi/completion-index.ts`: the completion markers of a session file, or a
rejection of the whole file.

A file is read in chunks of at most 65536 bytes.  An attempt meets what the
system calls return: whether the file opens, the status of the descriptor before and after,
what each read returns, the status of the name, and whether the file is synchronised.
Attempts are repeated while the status changes.

* `readEvidence_eq`: on a file that stays as it is, the answer is that of decoding the whole
  content and consuming its lines, however the reads split it.
-/

namespace WhatsAppMcp.Controller.Pi

/-! ## One line -/

/-- A completion proof of the file. -/
structure StoredProof where
  marker : StoredMarker
  entryId : String
  session : SessionBinding
  deriving DecidableEq, Repr

/-- What `readEvidence` keeps of the lines that it has consumed. -/
structure EvidenceScan where
  headerSeen : Bool
  bound : Bool
  ids : List String
  events : List String
  sequences : List Nat
  proofs : List StoredProof
  deriving DecidableEq, Repr

def EvidenceScan.empty : EvidenceScan := ⟨false, false, [], [], [], []⟩

/-- An entry `custom`, whose id is known from now on. -/
def consumeCustom (env : Runtime) (binding : SessionBinding) (s : EvidenceScan) (id : String)
    (e : Fields) : Option EvidenceScan :=
  match textOf e "customType" with
  | none => none
  | some customType =>
    if customType = bindingType then
      if s.bound || checkedBinding (e.lookup "data") ≠ some binding then none
      else some { s with bound := true }
    else if customType = completionType then
      match checkedMarker (e.lookup "data") with
      | none => none
      | some marker =>
        if !s.bound || marker.canonicalChatId ≠ binding.canonicalChatId ||
            s.events.contains marker.eventId || s.sequences.contains marker.chatSequence ||
            !validTimeText env marker.completedAt || 128 < id.length then none
        else some { s with
          events := marker.eventId :: s.events
          sequences := marker.chatSequence :: s.sequences
          proofs := s.proofs ++ [⟨marker, id, binding⟩] }
    else if "whatsapp.controller.completed".toList.isPrefixOf customType.toList then none
    else some s

/-- An entry, after the header. -/
def consumeEntry (env : Runtime) (binding : SessionBinding) (s : EvidenceScan) (e : Fields) :
    Option EvidenceScan :=
  match identified env s.ids e with
  | none => none
  | some (type, id) =>
    let s := { s with ids := id :: s.ids }
    if !shaped Json.isNumber s.ids e type then none
    else if type ≠ "custom" then some s
    else consumeCustom env binding s id e

/-- `consume`. -/
def consume (env : Runtime) (binding : SessionBinding) (s : EvidenceScan) (line : List Char) :
    Option EvidenceScan :=
  match (env.parse (String.ofList line)).bind Json.object? with
  | none => none
  | some e =>
    if !s.headerSeen then
      if isHeader env binding e then some { s with headerSeen := true } else none
    else consumeEntry env binding s e

/-- What the lines of a text prove: there must be a header and a binding. -/
def EvidenceScan.proven (s : EvidenceScan) : Option (List StoredProof) :=
  if s.headerSeen && s.bound then some s.proofs else none

/-- Decoding the whole content as strict UTF-8 and consuming it line by line. -/
def evidenceOf (env : Runtime) (binding : SessionBinding) (content : List UInt8) :
    Option (List StoredProof) := do
  let text ← Utf8.decodeText content
  let s ← LineReader.consumeText (consume env binding) .empty text
  s.proven

/-! ## The file -/

/-- `BigIntStats`, as far as it is compared. -/
structure FileStatus where
  device : Nat
  inode : Nat
  size : Nat
  mtimeNs : Nat
  isFile : Bool
  isSymbolicLink : Bool
  deriving DecidableEq, Repr

/-- The descriptor and the name have one file. -/
def FileStatus.same (fd named : FileStatus) : Bool :=
  fd.inode = named.inode && fd.device = named.device && fd.size = named.size &&
    fd.mtimeNs = named.mtimeNs

/-- The size and the time of a descriptor are those from before. -/
def FileStatus.unchanged (before after : FileStatus) : Bool :=
  before.size = after.size && before.mtimeNs = after.mtimeNs

/-- What one attempt meets. -/
structure Attempt where
  opens : Bool
  before : FileStatus
  /-- What successive reads return. -/
  chunks : List (List UInt8)
  after : FileStatus
  named : FileStatus
  syncs : Bool
  durable : FileStatus
  durableName : FileStatus
  deriving Repr

/-- The lines of an attempt; `none` is `invalid`. -/
def Attempt.evidence (env : Runtime) (binding : SessionBinding) (a : Attempt) :
    Option (List StoredProof) :=
  (LineReader.read (fun _ => true) (consume env binding) .empty a.before.size a.chunks).bind
    EvidenceScan.proven

/-- One attempt: the answer, or `none` where the next attempt is made. -/
def attemptEvidence (env : Runtime) (binding : SessionBinding) (a : Attempt) :
    Option (Option (List StoredProof)) :=
  if !a.opens || !a.before.isFile || a.before.size = 0 then some none
  else if !a.before.unchanged a.after || !a.after.same a.named then none
  else
    match a.evidence env binding with
    | none => some none
    | some proofs =>
      if !a.syncs then some none
      else if !a.after.unchanged a.durable || !a.durable.same a.durableName ||
          a.durableName.isSymbolicLink then none
      else some (some proofs)

/-- `readEvidence`: up to eight attempts, where the path of the session is in order. -/
def readEvidence (env : Runtime) (binding : SessionBinding) (pathOk : Bool) (attempts : List Attempt) :
    Option (List StoredProof) :=
  if pathOk then ((attempts.take 8).findSome? (attemptEvidence env binding)).join else none

/-- The attempt finds a file that stays as it is, with this content, and its reads split it. -/
structure Attempt.Finds (a : Attempt) (content : List UInt8) : Prop where
  opens : a.opens = true
  isFile : a.before.isFile = true
  size : a.before.size = content.length
  splits : LineReader.Splits content a.chunks
  stable : a.after = a.before
  named : a.named = a.before
  syncs : a.syncs = true
  durable : a.durable = a.before
  durableName : a.durableName = a.before
  notLink : a.before.isSymbolicLink = false

theorem evidenceOf_nil (env : Runtime) (binding : SessionBinding) : evidenceOf env binding [] = none := by
  have htext : Utf8.decodeText [] = some [] := by
    show (Utf8.decode (Utf8.encode [])).map Utf8.dropMark = _
    rw [Utf8.decode_encode]
    rfl
  unfold evidenceOf
  rw [htext]
  rfl

/-- The lines of an attempt are those of the content. -/
theorem Attempt.Finds.evidence {a : Attempt} {content : List UInt8} (h : a.Finds content) (env : Runtime)
    (binding : SessionBinding) : a.evidence env binding = evidenceOf env binding content := by
  unfold Attempt.evidence evidenceOf
  rw [h.size, LineReader.read_eq h.splits, Option.bind_assoc]
  rfl

theorem attemptEvidence_finds {a : Attempt} {content : List UInt8} (h : a.Finds content) (env : Runtime)
    (binding : SessionBinding) :
    attemptEvidence env binding a = some (evidenceOf env binding content) := by
  have hself : ∀ status : FileStatus, status.unchanged status = true := fun status => by
    simp [FileStatus.unchanged]
  have hsame : ∀ status : FileStatus, status.same status = true := fun status => by
    simp [FileStatus.same]
  unfold attemptEvidence
  rw [h.evidence env binding, h.stable, h.named, h.durable, h.durableName, hself, hsame, h.opens,
    h.isFile, h.syncs, h.notLink, h.size]
  cases content with
  | nil => simp [evidenceOf_nil]
  | cons b bytes =>
    cases hevidence : evidenceOf env binding (b :: bytes) <;> simp

/-- On a file that stays as it is, the proofs or the rejection are those of the whole content,
however the reads split it. -/
theorem readEvidence_eq (env : Runtime) (binding : SessionBinding) {content : List UInt8} {a : Attempt}
    (h : a.Finds content) (later : List Attempt) :
    readEvidence env binding true (a :: later) = evidenceOf env binding content := by
  unfold readEvidence
  rw [if_pos rfl, List.take_succ_cons, List.findSome?_cons, attemptEvidence_finds h]
  rfl

/-! ## A file with a header and a binding -/

namespace SampleFile

def created : String := "2026-01-01T00:00:00Z"

def binding : SessionBinding := ⟨"49@g.us", "s1", "/s/a.jsonl"⟩

def headerStart : String := "\x7b\"type\":\"session\",\"version\":3,\"id\":\"s1\",\"cwd\":\"/"

def headerEnd : String := "\",\"timestamp\":\"2026-01-01T00:00:00Z\"\x7d"

def header : Json :=
  .object [("type", .string "session"), ("version", .number "3"), ("id", .string "s1"),
    ("cwd", .string "/é"), ("timestamp", .string created)]

def bindingLine : String :=
  "\x7b\"type\":\"custom\",\"id\":\"a\",\"parentId\":null,\"timestamp\":\"2026-01-01T00:00:00Z\",\"customType\":\"whatsapp.controller.binding.v1\",\"data\":\x7b\"canonicalChatId\":\"49@g.us\",\"sessionId\":\"s1\",\"sessionFile\":\"/s/a.jsonl\"\x7d\x7d"

def bindingEntry : Json :=
  .object [("type", .string "custom"), ("id", .string "a"), ("parentId", .null),
    ("timestamp", .string created), ("customType", .string bindingType),
    ("data", .object [("canonicalChatId", .string "49@g.us"), ("sessionId", .string "s1"),
      ("sessionFile", .string "/s/a.jsonl")])]

/-- `JSON.parse` and `Date.parse` on the lines and the times of the file. -/
def runtime : Runtime where
  parse line :=
    if line = headerStart ++ "é" ++ headerEnd then some header else if line = bindingLine then some bindingEntry else none
  date text := if text = created then some 1767225600000 else none

/-- The text after the letter `é`. -/
def rest : List Char := headerEnd.toList ++ '\n' :: bindingLine.toList ++ ['\n']

def content : List UInt8 := Utf8.encode (headerStart.toList ++ 'é' :: rest)

def status : FileStatus := ⟨1, 2, content.length, 3, true, false⟩

/-- The first read ends inside the letter `é`. -/
def attempt : Attempt where
  opens := true
  before := status
  chunks := [Utf8.encode headerStart.toList ++ [0xC3], 0xA9 :: Utf8.encode rest]
  after := status
  named := status
  syncs := true
  durable := status
  durableName := status

theorem content_eq : content = Utf8.encode headerStart.toList ++ 0xC3 :: 0xA9 :: Utf8.encode rest := by
  unfold content Utf8.encode
  rw [List.flatMap_append]
  rfl

theorem attempt_finds : attempt.Finds content where
  opens := rfl
  isFile := rfl
  size := rfl
  splits := ⟨by simp [attempt, content_eq], by simp [attempt]⟩
  stable := rfl
  named := rfl
  syncs := rfl
  durable := rfl
  durableName := rfl
  notLink := rfl

end SampleFile

theorem readEvidence_sample :
    readEvidence SampleFile.runtime SampleFile.binding true [SampleFile.attempt] =
      evidenceOf SampleFile.runtime SampleFile.binding SampleFile.content :=
  readEvidence_eq SampleFile.runtime SampleFile.binding SampleFile.attempt_finds []

end WhatsAppMcp.Controller.Pi
