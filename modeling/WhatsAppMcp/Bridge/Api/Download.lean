import WhatsAppMcp.Bridge.Media.Download
import WhatsAppMcp.Bridge.Store.Media
import WhatsAppMcp.Bridge.Store.Writer

/-!
# The download request

`DownloadMedia` and `serveCachedMedia` of `bridge/api/handlers_download.go`.

* `serveCachedMedia` has the three outcomes of the source (`CacheOutcome`).
* `downloadMedia_of_destinationFails`: where the destination fails, the answer blames its
  directory and no row changes.
* `downloadMedia_retryable_iff`: when a promise of a retry is one that the worker keeps.
-/

namespace WhatsAppMcp.Bridge.Api

open Store (MessageRow StoredMessage MediaRow MediaTables WriteOutcome)
open Media (Disk GoError LocalDestError DownloadEnv CopyEnv PathError)

/-! ## Requests and answers -/

/-- `DownloadRequest`. -/
structure DownloadRequest where
  messageId : String
  chatJid : String
  outputDir : String
  deriving DecidableEq, Repr

/-- The key that a request names. -/
def DownloadRequest.key (req : DownloadRequest) : String × String := (req.messageId, req.chatJid)

/-- `DownloadResponse`. -/
structure DownloadResponse where
  filePath : String
  mediaType : String
  fileSize : Nat
  deriving DecidableEq, Repr

/-- What the handler writes: `writeError`, or the response with status 200. -/
inductive Answer where
  | error (status : Nat) (message code : String)
  | ok (response : DownloadResponse)
  deriving DecidableEq, Repr

/-- One character of `strconv.Quote`.  Every character from 128 on counts as
printable. -/
def quoteChar (c : Char) : String :=
  if c.toNat = 34 then "\\\""
  else if c.toNat = 92 then "\\\\"
  else if c.toNat = 7 then "\\a"
  else if c.toNat = 8 then "\\b"
  else if c.toNat = 9 then "\\t"
  else if c.toNat = 10 then "\\n"
  else if c.toNat = 11 then "\\v"
  else if c.toNat = 12 then "\\f"
  else if c.toNat = 13 then "\\r"
  else if c.toNat < 32 ∨ c.toNat = 127 then
    "\\x" ++ String.ofList (Store.hexByte (UInt8.ofNat c.toNat))
  else c.toString

/-- `strconv.Quote`. -/
def quote (text : String) : String :=
  "\"" ++ "".intercalate (text.toList.map quoteChar) ++ "\""

/-- `writeOutputDirUnwritable`. -/
def outputDirUnwritable (dest : LocalDestError) : Answer :=
  .error 500
    (if dest.dir ≠ "" then
      "output directory " ++ quote dest.dir ++ " is not writable; check the output_dir you requested"
    else "output directory is not writable")
    "OUTPUT_DIR_UNWRITABLE"

/-- The media will not be retried. -/
def permanentlyUnavailable : Answer :=
  .error 410 "media is permanently unavailable and will not be retried" "MEDIA_PERMANENTLY_UNAVAILABLE"

/-- A retry is promised. -/
def retryPending : Answer :=
  .error 503 "media download failed; a background retry is pending" "DOWNLOAD_RETRY_PENDING"

/-! ## The handler -/

/-- The fields of `Handler` that a download uses, and the home directory of the
process. -/
structure Handler where
  dataDir : String
  home : Option String
  maxDownloadAttempts : Int
  positive : 0 < maxDownloadAttempts

theorem defaultAttempts_pos : (0 : Int) < 3 := by decide

/-- `NewHandler`. -/
def newHandler (dataDir : String) (home : Option String) (maxDownloadAttempts : Int) : Handler :=
  if h : maxDownloadAttempts ≤ 0 then ⟨dataDir, home, 3, defaultAttempts_pos⟩
  else ⟨dataDir, home, maxDownloadAttempts, by omega⟩

/-- The database and the files. -/
structure World where
  tables : MediaTables
  disk : Disk

/-- What a request meets: the queries that fail, the calls on the files, the download,
and the ends of the two writes. -/
structure RequestEnv where
  getMessageFails : Bool
  getMediaFails : Bool
  stat : Option PathError
  copy : CopyEnv
  heal : WriteOutcome
  download : DownloadEnv
  record : WriteOutcome

/-- The directory that a request names, or the default. -/
def Handler.outDir (h : Handler) (req : DownloadRequest) : String :=
  if req.outputDir ≠ "" then Media.expandTilde h.home req.outputDir else h.dataDir

/-- The returns of `serveCachedMedia`. -/
inductive CacheOutcome where
  | hit (response : DownloadResponse)
  | miss
  | unwritable (dest : LocalDestError)
  deriving DecidableEq, Repr

/-- The stale failure state is cleared, where the row has some. -/
def heal (outcome : WriteOutcome) (row : MediaRow) (localPath : String) (t : MediaTables) : MediaTables :=
  if row.downloadPermanentlyFailed || 0 < row.downloadAttempts then
    Store.markMediaDownloaded outcome row.key localPath t
  else t

/-- `serveCachedMedia`, from the file that was found on. -/
def serveFile (env : RequestEnv) (msg : MessageRow) (row : MediaRow) (localPath wantPath : String)
    (size : Nat) (w : World) : World × CacheOutcome :=
  if wantPath ≠ localPath then
    match Media.copyFile env.copy localPath wantPath w.disk with
    | (disk, .ok n) =>
      (⟨heal env.heal row localPath w.tables, disk⟩, .hit ⟨wantPath, msg.mediaType, n⟩)
    | (disk, .error e) =>
      match Media.asLocalDestError e with
      | some dest => (⟨w.tables, disk⟩, .unwritable dest)
      | none => (⟨w.tables, disk⟩, .miss)
  else (⟨heal env.heal row localPath w.tables, w.disk⟩, .hit ⟨localPath, msg.mediaType, size⟩)

/-- `serveCachedMedia`. -/
def serveCachedMedia (env : RequestEnv) (req : DownloadRequest) (msg : MessageRow) (outDir : String)
    (w : World) : World × CacheOutcome :=
  match if env.getMediaFails then none else w.tables.media.lookup req.key with
  | none => (w, .miss)
  | some row =>
    let localPath := row.localPath.getD ""
    if localPath = "" then (w, .miss)
    else
      match Media.lookup "stat" env.stat w.disk localPath with
      | .ok (.file data) =>
        serveFile env msg row localPath (Media.resolveLocalPath outDir msg.chatJid msg.filename)
          data.length w
      | .ok .directory | .error _ => (w, .miss)

/-- The failure of a download: the record of it, and the answer. -/
def recordFailure (h : Handler) (req : DownloadRequest) (outcome : WriteOutcome) (e : GoError) (w : World) :
    World × Answer :=
  match Media.asLocalDestError e with
  | some dest => (w, outputDirUnwritable dest)
  | none =>
    let marked := Store.markMediaDownloadFailed outcome req.key e.text (Media.classifyDownloadError e)
      h.maxDownloadAttempts w.tables
    (⟨marked.1, w.disk⟩, if marked.2.1 then permanentlyUnavailable else retryPending)

/-- `DownloadMedia`, after a miss of the cache. -/
def fetchMedia (h : Handler) (env : RequestEnv) (req : DownloadRequest) (msg : MessageRow)
    (outDir : String) (w : World) : World × Answer :=
  match Media.download env.download msg outDir w.disk with
  | (disk, .error e) => recordFailure h req env.record e ⟨w.tables, disk⟩
  | (disk, .ok result) =>
    (⟨Store.markMediaDownloaded env.record req.key result.path w.tables, disk⟩,
      .ok ⟨result.path, result.mediaType, result.fileSize⟩)

/-- `DownloadMedia`, for a message with media. -/
def serveMedia (h : Handler) (env : RequestEnv) (req : DownloadRequest) (msg : MessageRow) (w : World) :
    World × Answer :=
  match serveCachedMedia env req msg (h.outDir req) w with
  | (w, .unwritable dest) => (w, outputDirUnwritable dest)
  | (w, .hit response) => (w, .ok response)
  | (w, .miss) => fetchMedia h env req msg (h.outDir req) w

/-- `DownloadMedia`.  The body is a request, or it does not decode. -/
def downloadMedia (h : Handler) (env : RequestEnv) (body : Option DownloadRequest) (w : World) :
    World × Answer :=
  match body with
  | none => (w, .error 400 "invalid JSON body" "INVALID_JSON")
  | some req =>
    if req.messageId = "" || req.chatJid = "" then
      (w, .error 400 "message_id and chat_jid are required" "MISSING_FIELD")
    else if !isChatJid req.chatJid then (w, .error 400 "invalid chat_jid format" "INVALID_JID")
    else if env.getMessageFails then (w, .error 500 "failed to retrieve message" "DB_ERROR")
    else
      match w.tables.messages.lookup req.key with
      | none => (w, .error 404 "message not found" "NOT_FOUND")
      | some msg =>
        if msg.mediaType = "" then (w, .error 400 "message has no media" "NOT_MEDIA")
        else serveMedia h env req msg.toMessageRow w

/-- The codes of the requests that are refused before the media is looked for. -/
def refusals : List String := ["MISSING_FIELD", "INVALID_JID", "DB_ERROR", "NOT_FOUND", "NOT_MEDIA"]

/-- A request is refused with nothing done, or it is served for the message that it
names. -/
theorem downloadMedia_cases (h : Handler) (env : RequestEnv) (req : DownloadRequest) (w : World) :
    (∃ status message, ∃ code ∈ refusals,
      downloadMedia h env (some req) w = (w, .error status message code)) ∨
    ∃ msg, w.tables.messages.lookup req.key = some msg ∧ msg.mediaType ≠ "" ∧
      downloadMedia h env (some req) w = serveMedia h env req msg.toMessageRow w := by
  unfold downloadMedia
  dsimp only
  split
  · exact .inl ⟨_, _, _, by decide, rfl⟩
  · split
    · exact .inl ⟨_, _, _, by decide, rfl⟩
    · split
      · exact .inl ⟨_, _, _, by decide, rfl⟩
      · split
        · exact .inl ⟨_, _, _, by decide, rfl⟩
        · next msg hmsg =>
          split
          · exact .inl ⟨_, _, _, by decide, rfl⟩
          · next hmedia => exact .inr ⟨msg, hmsg, hmedia, rfl⟩

/-! ## The tables after a miss -/

section Cache

variable {env : RequestEnv} {req : DownloadRequest} {msg : MessageRow} {outDir : String} {w w' : World}

theorem serveFile_tables {row : MediaRow} {localPath wantPath : String} {size : Nat} {outcome : CacheOutcome}
    (hserved : serveFile env msg row localPath wantPath size w = (w', outcome))
    (hhit : ∀ response, outcome ≠ .hit response) : w'.tables = w.tables := by
  unfold serveFile at hserved
  split at hserved
  · split at hserved
    · exact absurd (Prod.mk.inj hserved).2.symm (hhit _)
    · split at hserved <;> rw [← (Prod.mk.inj hserved).1]
  · exact absurd (Prod.mk.inj hserved).2.symm (hhit _)

/-- Where the cache serves nothing, the tables are as they were. -/
theorem serveCachedMedia_tables {outcome : CacheOutcome}
    (hserved : serveCachedMedia env req msg outDir w = (w', outcome))
    (hhit : ∀ response, outcome ≠ .hit response) : w'.tables = w.tables := by
  unfold serveCachedMedia at hserved
  split at hserved
  · rw [← (Prod.mk.inj hserved).1]
  · dsimp only at hserved
    split at hserved
    · rw [← (Prod.mk.inj hserved).1]
    · split at hserved
      · exact serveFile_tables hserved hhit
      · rw [← (Prod.mk.inj hserved).1]
      · rw [← (Prod.mk.inj hserved).1]

end Cache

/-! ## A destination that fails -/

/-- Where the file of a message is wanted. -/
def Handler.wantPath (h : Handler) (req : DownloadRequest) (msg : MessageRow) : String :=
  Media.resolveLocalPath (h.outDir req) msg.chatJid msg.filename

/-- No check refuses the request, which is for this message. -/
structure Serves (env : RequestEnv) (req : DownloadRequest) (w : World) (msg : StoredMessage) :
    Prop where
  messageId : req.messageId ≠ ""
  chatJid : isChatJid req.chatJid = true
  query : env.getMessageFails = false
  found : w.tables.messages.lookup req.key = some msg
  media : msg.mediaType ≠ ""

/-- The destination cannot be created or written: the copy of the file that the row names, or
the download after a miss, comes back with a `LocalDestError`. -/
inductive DestinationFails (h : Handler) (env : RequestEnv) (req : DownloadRequest) (msg : MessageRow)
    (w : World) : Prop
  | copy {row : MediaRow} {localPath : String} {data : List UInt8} {disk : Disk} {e : GoError}
      (hquery : env.getMediaFails = false) (hrow : w.tables.media.lookup req.key = some row)
      (hpath : row.localPath = some localPath) (hnonempty : localPath ≠ "")
      (hstat : Media.lookup "stat" env.stat w.disk localPath = .ok (.file data))
      (hwant : h.wantPath req msg ≠ localPath)
      (hcopy : Media.copyFile env.copy localPath (h.wantPath req msg) w.disk = (disk, .error e))
      (hdest : e.localDest ≠ none)
  | download {w' : World} {disk : Disk} {e : GoError}
      (hmiss : serveCachedMedia env req msg (h.outDir req) w = (w', .miss))
      (hdownload : Media.download env.download msg (h.outDir req) w'.disk = (disk, .error e))
      (hdest : e.localDest ≠ none)

section Destination

variable {h : Handler} {env : RequestEnv} {req : DownloadRequest} {w : World}

theorem downloadMedia_of_serves {msg : StoredMessage} (hserves : Serves env req w msg) :
    downloadMedia h env (some req) w = serveMedia h env req msg.toMessageRow w := by
  have hchat : req.chatJid ≠ "" := by
    intro hempty
    have hjid := hserves.chatJid
    rw [hempty] at hjid
    exact absurd hjid (by decide)
  unfold downloadMedia
  simp [hserves.messageId, hchat, hserves.chatJid, hserves.query, hserves.found, hserves.media]

theorem recordFailure_of_localDest {outcome : WriteOutcome} {e : GoError} {dest : LocalDestError}
    (hdest : e.localDest = some dest) : recordFailure h req outcome e w = (w, outputDirUnwritable dest) := by
  unfold recordFailure
  rw [Media.asLocalDestError_of_localDest hdest]

/-- A copy that fails at its destination is not a miss. -/
theorem serveCachedMedia_of_localDest {msg : MessageRow} {row : MediaRow} {localPath : String}
    {data : List UInt8} {disk : Disk} {e : GoError} {dest : LocalDestError}
    (hquery : env.getMediaFails = false) (hrow : w.tables.media.lookup req.key = some row)
    (hpath : row.localPath = some localPath) (hnonempty : localPath ≠ "")
    (hstat : Media.lookup "stat" env.stat w.disk localPath = .ok (.file data))
    (hwant : h.wantPath req msg ≠ localPath)
    (hcopy : Media.copyFile env.copy localPath (h.wantPath req msg) w.disk = (disk, .error e))
    (hdest : e.localDest = some dest) :
    serveCachedMedia env req msg (h.outDir req) w = (⟨w.tables, disk⟩, .unwritable dest) := by
  unfold Handler.wantPath at hwant hcopy
  unfold serveCachedMedia serveFile
  simp only [hquery, Bool.false_eq_true, if_false, hrow, hpath, Option.getD_some, hnonempty, hstat]
  rw [if_pos hwant, hcopy]
  simp only [Media.asLocalDestError_of_localDest hdest]

/-- Where the destination fails, the answer blames its directory, and no row changes. -/
theorem serveMedia_of_destinationFails {msg : MessageRow} (hfails : DestinationFails h env req msg w) :
    ∃ disk dest, dest.dir = Media.dir (h.wantPath req msg) ∧
      serveMedia h env req msg w = (⟨w.tables, disk⟩, outputDirUnwritable dest) := by
  cases hfails with
  | @copy row localPath data disk e hquery hrow hpath hnonempty hstat hwant hcopy hdest =>
    obtain ⟨dest, hdest⟩ := Option.ne_none_iff_exists'.mp hdest
    refine ⟨disk, dest, Media.copyFile_localDest hcopy hdest, ?_⟩
    unfold serveMedia
    rw [serveCachedMedia_of_localDest hquery hrow hpath hnonempty hstat hwant hcopy hdest]
  | @download w' disk e hmiss hdownload hdest =>
    obtain ⟨dest, hdest⟩ := Option.ne_none_iff_exists'.mp hdest
    refine ⟨disk, dest, (Media.download_localDest hdownload hdest).1, ?_⟩
    unfold serveMedia fetchMedia
    rw [hmiss]
    dsimp only
    rw [hdownload]
    dsimp only
    rw [recordFailure_of_localDest hdest, serveCachedMedia_tables hmiss fun _ => nofun]

theorem downloadMedia_of_destinationFails {msg : StoredMessage} (hserves : Serves env req w msg)
    (hfails : DestinationFails h env req msg.toMessageRow w) :
    ∃ disk dest, dest.dir = Media.dir (h.wantPath req msg.toMessageRow) ∧
      downloadMedia h env (some req) w = (⟨w.tables, disk⟩, outputDirUnwritable dest) := by
  rw [downloadMedia_of_serves hserves]
  exact serveMedia_of_destinationFails hfails

end Destination

/-! ## The promise of a retry -/

section Promise

variable {h : Handler} {env : RequestEnv} {req : DownloadRequest} {w w' : World}

/-- A retry is promised for a failure that is recorded without permanence, or that the
store did not return a permanence for. -/
theorem recordFailure_retryPending {outcome : WriteOutcome} {e : GoError}
    (hpending : recordFailure h req outcome e w = (w', retryPending)) :
    ∃ structural, w'.tables = (Store.markMediaDownloadFailed outcome req.key e.text structural
        h.maxDownloadAttempts w.tables).1 ∧
      (Store.markMediaDownloadFailed outcome req.key e.text structural
        h.maxDownloadAttempts w.tables).2.1 = false := by
  unfold recordFailure at hpending
  split at hpending
  · cases hpending
  · refine ⟨_, (congrArg (·.1.tables) hpending).symm, ?_⟩
    have hanswer := congrArg Prod.snd hpending
    dsimp only at hanswer
    split at hanswer
    · cases hanswer
    · next hpermanent => exact Bool.eq_false_iff.mpr hpermanent

/-- What a promise of a retry says of the request. -/
theorem downloadMedia_retryPending (hpending : downloadMedia h env (some req) w = (w', retryPending)) :
    ∃ errMsg structural,
      w'.tables = (Store.markMediaDownloadFailed env.record req.key errMsg structural
        h.maxDownloadAttempts w.tables).1 ∧
      (Store.markMediaDownloadFailed env.record req.key errMsg structural
        h.maxDownloadAttempts w.tables).2.1 = false := by
  rcases downloadMedia_cases h env req w with ⟨status, message, code, hcode, hrefused⟩ | ⟨msg, -, -, hserved⟩
  · rw [hrefused] at hpending
    obtain ⟨-, hanswer⟩ := Prod.mk.inj hpending
    rw [(Answer.error.inj hanswer).2.2] at hcode
    exact absurd hcode (by decide)
  · rw [hserved] at hpending
    unfold serveMedia fetchMedia at hpending
    split at hpending
    · cases hpending
    · cases hpending
    · next w₁ hmiss =>
      split at hpending
      · next disk e _ =>
        obtain ⟨structural, htables, hpermanent⟩ := recordFailure_retryPending hpending
        rw [← serveCachedMedia_tables hmiss fun _ => nofun]
        exact ⟨e.text, structural, htables, hpermanent⟩
      · cases hpending

end Promise

/-- The row that the retry worker waits for: it has no path and is not audio, and the
failure that is recorded counts from zero on.  Where nothing is recorded, the worker
selects the row already. -/
def Awaited (t : MediaTables) (outcome : WriteOutcome) (key : String × String) (maxAttempts : Int) : Prop :=
  ∃ row, t.media.lookup key = some row ∧ row.localPath = none ∧ row.mediaType ≠ .audio ∧
    if t.Records outcome key maxAttempts then 0 ≤ row.downloadAttempts
    else Store.Retryable maxAttempts row

/-- After a promise of a retry, the row is one that the retry worker selects, if and only
if it is awaited. -/
theorem downloadMedia_retryable_iff {h : Handler} {env : RequestEnv} {req : DownloadRequest} {w w' : World}
    (hpending : downloadMedia h env (some req) w = (w', retryPending)) :
    (∃ row, w'.tables.media.lookup req.key = some row ∧
        Store.Retryable h.maxDownloadAttempts row = true) ↔
      Awaited w.tables env.record req.key h.maxDownloadAttempts := by
  obtain ⟨errMsg, structural, htables, hpermanent⟩ := downloadMedia_retryPending hpending
  unfold Awaited
  rw [htables]
  cases hrecords : w.tables.Records env.record req.key h.maxDownloadAttempts with
  | false =>
    rw [Store.markMediaDownloadFailed_of_not_records errMsg structural hrecords]
    show _ ↔ ∃ row, _ ∧ _ ∧ _ ∧ Store.Retryable h.maxDownloadAttempts row = true
    refine exists_congr fun row => and_congr_right fun _ => ?_
    rw [Store.retryable_iff]
    exact ⟨fun hrow => ⟨hrow.1, hrow.2.1, hrow⟩, fun hrow => hrow.2.2⟩
  | true =>
    obtain ⟨row, hrow, hafter, hreturned⟩ := Store.markMediaDownloadFailed_of_records
      errMsg structural hrecords
    rw [hafter, MediaTables.lookup_update, if_pos rfl, hrow]
    rw [hreturned] at hpermanent
    simp only [Option.map_some, Option.some.injEq, exists_eq_left', if_true]
    exact Store.retryable_failed hpermanent

/-! ## A request for an image -/

/-- An image of a private chat. -/
def sampleImage : StoredMessage where
  id := "M1"
  chatJid := "15@lid"
  sender := "15@lid"
  senderName := ""
  content := ""
  timestamp := 1000
  isFromMe := false
  mediaType := "image"
  filename := "image_20240101_100000.jpg"
  url := "https://mmg.whatsapp.net/v/t62.7118-24/f.enc?ccb=1"
  mediaKey := [1]
  fileSha256 := [2]
  fileEncSha256 := [3]
  fileLength := 4
  pushName := ""
  quotedMessageId := ""
  quotedParticipant := ""
  isBridgeOrigin := false

/-- Its media row, before any download. -/
def sampleRow : MediaRow where
  messageId := "M1"
  chatJid := "15@lid"
  mediaType := .image
  filename := some "image_20240101_100000.jpg"
  fileLength := some 4
  mediaKey := some [1]
  fileSha256 := some [2]
  fileEncSha256 := some [3]
  url := some "https://mmg.whatsapp.net/v/t62.7118-24/f.enc?ccb=1"
  localPath := none
  downloadAttempts := 0
  downloadLastError := none
  downloadPermanentlyFailed := false
  transcribed := false
  createdAt := 1000

/-- The tables with the image, where its row has a path or none. -/
def sampleTables (localPath : Option String) : MediaTables where
  messages := ⟨[sampleImage], List.nodup_singleton _⟩
  media := ⟨[{ sampleRow with localPath }], List.nodup_singleton _⟩
  references := by
    intro r hr
    refine ⟨sampleImage, List.mem_singleton.mpr rfl, ?_⟩
    rw [List.mem_singleton.mp hr]
    rfl

/-- Paths are places, and there is no file. -/
def sampleDisk : Disk := ⟨id, fun _ => none⟩

/-- The calls on the files work, and the signed URL is stale. -/
def staleUrl : DownloadEnv where
  mkdir := none
  stat := none
  ctx := none
  fetch := fun _ => .error ⟨"download failed with status code 403", none, false, false⟩
  write := none
  directorySize := 4096

/-- A request that meets the stale URL and no other failure. -/
def sampleRequestEnv : RequestEnv where
  getMessageFails := false
  getMediaFails := false
  stat := none
  copy := ⟨none, none, none, none, none, false⟩
  heal := .committed
  download := staleUrl
  record := .committed

/-- The handler with its default limit. -/
def sampleHandler : Handler := newHandler "/data" none 0

/-- The request for the image. -/
def sampleDownload : DownloadRequest := ⟨"M1", "15@lid", ""⟩

theorem downloadMedia_retryable_iff_of_sampleDownload :
    let w : World := ⟨sampleTables none, sampleDisk⟩
    (∃ row, (downloadMedia sampleHandler sampleRequestEnv (some sampleDownload) w).1.tables.media.lookup
        sampleDownload.key = some row ∧ Store.Retryable sampleHandler.maxDownloadAttempts row = true) ↔
      Awaited w.tables sampleRequestEnv.record sampleDownload.key sampleHandler.maxDownloadAttempts :=
  downloadMedia_retryable_iff (Prod.ext rfl (by decide +kernel))

/-- The row records a path whose file is gone: the worker never selects it again. -/
theorem downloadMedia_abandons_of_sampleDownload :
    ¬ ∀ (h : Handler) (env : RequestEnv) (req : DownloadRequest) (w w' : World),
      downloadMedia h env (some req) w = (w', retryPending) →
      (∀ msg, w.tables.messages.lookup req.key = some msg → msg.mediaType ≠ "audio") →
      ∃ row, w'.tables.media.lookup req.key = some row ∧
        Store.Retryable h.maxDownloadAttempts row = true := by
  intro hclaim
  let w : World := ⟨sampleTables (some "/data/media/15@lid/image_20240101_100000.jpg"), sampleDisk⟩
  obtain ⟨row, hrow, hretry⟩ := hclaim sampleHandler sampleRequestEnv sampleDownload w _
    (Prod.ext rfl (by decide +kernel)) (by
      intro msg hmsg
      rw [← Option.some.inj hmsg]
      decide)
  have hpath : row.localPath = some "/data/media/15@lid/image_20240101_100000.jpg" := by
    rw [← Option.some.inj hrow]
    rfl
  rw [(Store.retryable_iff.mp hretry).1] at hpath
  cases hpath

end WhatsAppMcp.Bridge.Api
