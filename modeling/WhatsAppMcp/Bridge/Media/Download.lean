import WhatsAppMcp.Lib.Files
import WhatsAppMcp.Bridge.Media.Paths
import WhatsAppMcp.Bridge.Store.Schema

/-!
# The download of one media file

`bridge/media/download.go`, `errors.go` and `classify.go`, and `CopyFile` of
`helpers.go`.

The system calls that fail, the context and the answer of WhatsApp are in
`DownloadEnv` and `CopyEnv`.  A call that fails may have done a part: some of the
directories, some of the bytes.  A `GoError` is what the code finds in the chain of an
error with `errors.As` and `errors.Is`.

* `asLocalDestError_of_localDest`: a failure at the destination is known for one.
* `download_localDest`, `copyFile_localDest`: such a failure blames the directory of the
  file, and it is not a cancellation.
-/

namespace WhatsAppMcp.Bridge.Media

open Store (MessageRow)

/-- The files that the bridge sees. -/
abbrev Disk := Files String String UInt8

/-! ## Errors -/

/-- `*fs.PathError`.  `permission` is `os.IsPermission` of it. -/
structure PathError where
  op : String
  path : String
  cause : String
  permission : Bool
  deriving DecidableEq, Repr

/-- `PathError.Error`. -/
def PathError.text (e : PathError) : String := e.op ++ " " ++ e.path ++ ": " ++ e.cause

/-- `LocalDestError`, up to the error that it wraps. -/
structure LocalDestError where
  op : String
  dir : String
  deriving DecidableEq, Repr

/-- An error, with what its chain holds: the first `LocalDestError`, the first
`PathError`, a sentinel of whatsmeow for a message without anything to download, and
`context.Canceled`.  `isPermission` is `os.IsPermission`, which does not look through
wrapped errors. -/
structure GoError where
  text : String
  localDest : Option LocalDestError := none
  pathError : Option PathError := none
  nothingToDownload : Bool := false
  cancelled : Bool := false
  isPermission : Bool := false
  deriving DecidableEq, Repr

/-- `newLocalDestError`. -/
def localDestError (op dir : String) (e : PathError) : GoError :=
  { text := op ++ " " ++ dir ++ ": " ++ e.text, localDest := some ⟨op, dir⟩, pathError := some e }

/-- `ctx.Err()`: the context is cancelled, or its deadline is over. -/
structure ContextError where
  text : String
  cancelled : Bool
  deriving DecidableEq, Repr

/-- An error of `client.Download`.  No `LocalDestError` comes from there. -/
structure ClientError where
  text : String
  pathError : Option PathError
  nothingToDownload : Bool
  cancelled : Bool
  deriving DecidableEq, Repr

/-- `"download cancelled: %w"`. -/
def downloadCancelled (e : ContextError) : GoError :=
  { text := "download cancelled: " ++ e.text, cancelled := e.cancelled }

/-- `"whatsmeow download: %w"`. -/
def downloadFailed (e : ClientError) : GoError :=
  { text := "whatsmeow download: " ++ e.text, pathError := e.pathError
    nothingToDownload := e.nothingToDownload, cancelled := e.cancelled }

/-- `AsLocalDestError`. -/
def asLocalDestError (e : GoError) : Option LocalDestError :=
  match e.localDest with
  | some d => some d
  | none =>
    let denied := if e.isPermission then some ⟨"write", ""⟩ else none
    match e.pathError with
    | none => denied
    | some p =>
      if p.op ∈ ["mkdir", "create", "write"] || p.op ∈ ["open", "openat", "stat"] && p.permission then
        some ⟨p.op, dir p.path⟩
      else denied

theorem asLocalDestError_of_localDest {e : GoError} {dest : LocalDestError}
    (h : e.localDest = some dest) : asLocalDestError e = some dest := by
  unfold asLocalDestError
  rw [h]

/-- The text after the first occurrence of another. -/
def after (sep : List Char) : List Char → Option (List Char)
  | [] => if sep = [] then some [] else none
  | c :: rest =>
    if sep.isPrefixOf (c :: rest) then some ((c :: rest).drop sep.length) else after sep rest

/-- `strings.Contains`. -/
def contains (text sub : String) : Bool := (after sub.toList text.toList).isSome

/-- `ClassifyDownloadError`. -/
def classifyDownloadError (e : GoError) : Bool :=
  e.nothingToDownload || contains e.text "incomplete media metadata" ||
    contains e.text "missing media info"

/-! ## What WhatsApp is asked for -/

/-- `extractDirectPath`. -/
def extractDirectPath (rawUrl : String) : String :=
  match after ".net/".toList rawUrl.toList with
  | none => rawUrl
  | some rest => "/" ++ String.ofList (rest.takeWhile (· ≠ '?'))

/-- `whatsmeow.MediaType`. -/
inductive WaMediaType where
  | image
  | video
  | audio
  | document
  deriving DecidableEq, Repr

/-- `toWAMediaType`. -/
def toWaMediaType (t : String) : WaMediaType :=
  if t = "image" then .image
  else if t = "video" then .video
  else if t = "audio" then .audio
  else .document

/-- `storedMediaDownloader`. -/
structure StoredMediaDownloader where
  url : String
  directPath : String
  mediaKey : List UInt8
  fileLength : Nat
  fileSha256 : List UInt8
  fileEncSha256 : List UInt8
  mediaType : WaMediaType
  deriving DecidableEq, Repr

/-- The descriptor of a message.  `uint64` takes the length modulo the word. -/
def descriptor (msg : MessageRow) : StoredMediaDownloader :=
  { url := msg.url
    directPath := extractDirectPath msg.url
    mediaKey := msg.mediaKey
    fileLength := (msg.fileLength % 2 ^ 64).toNat
    fileSha256 := msg.fileSha256
    fileEncSha256 := msg.fileEncSha256
    mediaType := toWaMediaType msg.mediaType }

/-- The descriptor is complete enough for a download. -/
def hasDescriptor (msg : MessageRow) : Bool :=
  msg.url ≠ "" && msg.mediaKey ≠ [] && msg.fileSha256 ≠ [] && msg.fileEncSha256 ≠ []

/-! ## Download -/

/-- What `Download` meets: the calls that fail, `ctx.Err()`, and `client.Download`. -/
structure DownloadEnv where
  /-- `os.MkdirAll` fails after some directories. -/
  mkdir : Option (PathError × Nat)
  stat : Option PathError
  ctx : Option ContextError
  fetch : StoredMediaDownloader → Except ClientError (List UInt8)
  /-- `os.WriteFile` fails, before the file is opened or after some bytes. -/
  write : Option (PathError × Option Nat)
  /-- What the system calls the size of a directory. -/
  directorySize : Nat

/-- `ENOENT`. -/
def notExist (op path : String) : PathError := ⟨op, path, "no such file or directory", false⟩

/-- `EISDIR`. -/
def isDirectory (op path : String) : PathError := ⟨op, path, "is a directory", false⟩

/-- `os.Stat` or `os.Open`, by its name: the node, or the error of the call. -/
def lookup (op : String) (fault : Option PathError) (disk : Disk) (path : String) :
    Except PathError (Node UInt8) :=
  match fault, disk.get path with
  | some e, _ => .error e
  | none, some node => .ok node
  | none, none => .error (notExist op path)

/-- `FileInfo.Size`. -/
def sizeOf (directorySize : Nat) : Node UInt8 → Nat
  | .file data => data.length
  | .directory => directorySize

/-- `os.MkdirAll`. -/
def mkdirAll (fault : Option (PathError × Nat)) (path : String) (disk : Disk) :
    Disk × Option PathError :=
  match fault with
  | some (e, made) => (disk.mkdirs ((directories path).take made), some e)
  | none => (disk.mkdirs (directories path), none)

/-- `os.WriteFile`. -/
def writeFile (fault : Option (PathError × Option Nat)) (path : String) (data : List UInt8)
    (disk : Disk) : Disk × Option PathError :=
  match fault, disk.get path with
  | some (e, none), _ => (disk, some e)
  | _, some .directory => (disk, some (isDirectory "open" path))
  | some (e, some n), _ => (disk.put path (.file (data.take n)), some e)
  | none, _ => (disk.put path (.file data), none)

/-- `DownloadResult`. -/
structure DownloadResult where
  path : String
  mediaType : String
  filename : String
  fileSize : Nat
  deriving DecidableEq, Repr

/-- `Download`, from the descriptor on: nothing was found at the path. -/
def retrieve (env : DownloadEnv) (msg : MessageRow) (localPath : String) (disk : Disk) :
    Disk × Except GoError DownloadResult :=
  if !hasDescriptor msg then
    (disk, .error { text := "incomplete media metadata for message " ++ msg.id ++ " in chat " ++
      msg.chatJid })
  else
    match env.ctx with
    | some e => (disk, .error (downloadCancelled e))
    | none =>
      match env.fetch (descriptor msg) with
      | .error e => (disk, .error (downloadFailed e))
      | .ok data =>
        match writeFile env.write localPath data disk with
        | (disk, some e) => (disk, .error (localDestError "write file" (dir localPath) e))
        | (disk, none) => (disk, .ok ⟨localPath, msg.mediaType, msg.filename, data.length⟩)

/-- `Download`. -/
def download (env : DownloadEnv) (msg : MessageRow) (outDir : String) (disk : Disk) :
    Disk × Except GoError DownloadResult :=
  if msg.mediaType = "" then (disk, .error { text := "message has no media" })
  else
    let localPath := resolveLocalPath outDir msg.chatJid msg.filename
    match mkdirAll env.mkdir (dir localPath) disk with
    | (disk, some e) => (disk, .error (localDestError "create media dir" (dir localPath) e))
    | (disk, none) =>
      match lookup "stat" env.stat disk localPath with
      | .ok node =>
        (disk, .ok ⟨localPath, msg.mediaType, msg.filename, sizeOf env.directorySize node⟩)
      | .error _ => retrieve env msg localPath disk

theorem localDest_localDestError {op dir : String} {p : PathError} {dest : LocalDestError}
    (h : (localDestError op dir p).localDest = some dest) :
    dest.dir = dir ∧ (localDestError op dir p).cancelled = false := by
  rw [← Option.some.inj h]
  exact ⟨rfl, rfl⟩

section LocalDest

variable {env : DownloadEnv} {msg : MessageRow} {disk disk' : Disk} {e : GoError} {dest : LocalDestError}

theorem retrieve_localDest {localPath : String} (h : retrieve env msg localPath disk = (disk', .error e))
    (hdest : e.localDest = some dest) : dest.dir = dir localPath ∧ e.cancelled = false := by
  unfold retrieve at h
  split at h
  · cases h
    cases hdest
  · split at h
    · cases h
      cases hdest
    · split at h
      · cases h
        cases hdest
      · split at h
        · cases h
          exact localDest_localDestError hdest
        · cases h

/-- A `LocalDestError` of a download names the directory of the file, and is not a
cancellation. -/
theorem download_localDest {outDir : String} (h : download env msg outDir disk = (disk', .error e))
    (hdest : e.localDest = some dest) :
    dest.dir = dir (resolveLocalPath outDir msg.chatJid msg.filename) ∧ e.cancelled = false := by
  unfold download at h
  split at h
  · cases h
    cases hdest
  · dsimp only at h
    split at h
    · cases h
      exact localDest_localDestError hdest
    · split at h
      · cases h
      · exact retrieve_localDest h hdest

end LocalDest

/-! ## Copies -/

/-- What `CopyFile` meets.  A copy that fails is removed, where the removal works. -/
structure CopyEnv where
  mkdir : Option (PathError × Nat)
  openSource : Option PathError
  openDest : Option PathError
  /-- `io.Copy` fails after some bytes. -/
  copy : Option (PathError × Nat)
  close : Option PathError
  removeFails : Bool

/-- `os.Remove` of a copy that failed. -/
def CopyEnv.discard (env : CopyEnv) (dst : String) (disk : Disk) : Disk :=
  if env.removeFails then disk else disk.remove dst

/-- `CopyFile`, from the truncated destination on. -/
def copyContent (env : CopyEnv) (src dst : String) (disk : Disk) : Disk × Except GoError Nat :=
  match env.copy, disk.get src with
  | some (e, n), some (.file data) =>
    (env.discard dst (disk.put dst (.file (data.take n))),
      .error (localDestError "write dest file" (dir dst) e))
  | none, some (.file data) =>
    let disk := disk.put dst (.file data)
    match env.close with
    | some e => (env.discard dst disk, .error (localDestError "close dest file" (dir dst) e))
    | none => (disk, .ok data.length)
  | _, _ =>
    (env.discard dst disk,
      .error (localDestError "write dest file" (dir dst) (isDirectory "read" src)))

/-- `os.OpenFile` of the destination: its error, where it has one. -/
def openDest (fault : Option PathError) (disk : Disk) (dst : String) : Option PathError :=
  match fault, disk.get dst with
  | some e, _ => some e
  | none, some .directory => some (isDirectory "open" dst)
  | none, _ => none

/-- `CopyFile`. -/
def copyFile (env : CopyEnv) (src dst : String) (disk : Disk) : Disk × Except GoError Nat :=
  match mkdirAll env.mkdir (dir dst) disk with
  | (disk, some e) => (disk, .error (localDestError "create dest dir" (dir dst) e))
  | (disk, none) =>
    match lookup "open" env.openSource disk src with
    | .error e =>
      (disk, .error { text := "open source \"" ++ src ++ "\": " ++ e.text, pathError := some e })
    | .ok _ =>
      match openDest env.openDest disk dst with
      | some e => (disk, .error (localDestError "create dest file" (dir dst) e))
      | none => copyContent env src dst (disk.put dst (.file []))

/-- A `LocalDestError` of a copy names the directory of the destination. -/
theorem copyFile_localDest {env : CopyEnv} {src dst : String} {disk disk' : Disk} {e : GoError}
    {dest : LocalDestError} (h : copyFile env src dst disk = (disk', .error e))
    (hdest : e.localDest = some dest) : dest.dir = dir dst := by
  unfold copyFile copyContent at h
  dsimp only at h
  repeat' split at h
  all_goals cases h
  all_goals first
    | cases hdest
      done
    | exact (localDest_localDestError hdest).1

end WhatsAppMcp.Bridge.Media
