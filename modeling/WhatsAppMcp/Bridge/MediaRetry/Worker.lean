import WhatsAppMcp.Bridge.Media.Download
import WhatsAppMcp.Bridge.Store.Media

/-!
# The retry of one media row

`retryOne` and `mediaRowToMessage` of `bridge/mediaretry/worker.go`.

A failure is recorded by its class alone.  `AsLocalDestError` is not asked, so a failure
at the destination counts as an attempt: `retryOne_tables`.
-/

namespace WhatsAppMcp.Bridge.MediaRetry

open Store (MessageRow MediaRow MediaTables WriteOutcome)
open Media (Disk DownloadEnv)

/-- The fields of `Worker` that one retry uses. -/
structure Worker where
  dataDir : String
  maxAttempts : Int
  positive : 0 < maxAttempts

theorem maxAttempts_pos {maxAttempts : Int} (h : ¬ maxAttempts ≤ 0) : 0 < maxAttempts := by omega

/-- `New`. -/
def new (dataDir : String) (maxAttempts : Int) : Worker :=
  if h : maxAttempts ≤ 0 then ⟨dataDir, 3, by decide⟩
  else ⟨dataDir, maxAttempts, maxAttempts_pos h⟩

/-- `mediaRowToMessage`. -/
def mediaRowToMessage (m : MediaRow) : MessageRow where
  id := m.messageId
  chatJid := m.chatJid
  sender := ""
  senderName := ""
  content := ""
  timestamp := zeroTime
  isFromMe := false
  mediaType := m.mediaType.text
  filename := m.filename.getD ""
  url := m.url.getD ""
  mediaKey := m.mediaKey.getD []
  fileSha256 := m.fileSha256.getD []
  fileEncSha256 := m.fileEncSha256.getD []
  fileLength := m.fileLength.getD 0
  pushName := ""
  quotedMessageId := ""
  quotedParticipant := ""

/-- `retryOne`, for a row as it was listed. -/
def retryOne (worker : Worker) (env : DownloadEnv) (outcome : WriteOutcome) (m : MediaRow)
    (t : MediaTables) (disk : Disk) : MediaTables × Disk :=
  match Media.download env (mediaRowToMessage m) worker.dataDir disk with
  | (disk, .error e) =>
    if e.cancelled then (t, disk)
    else
      ((Store.markMediaDownloadFailed outcome m.key e.text (Media.classifyDownloadError e)
        worker.maxAttempts t).1, disk)
  | (disk, .ok result) => (Store.markMediaDownloaded outcome m.key result.path t, disk)

/-- A retry that fails at the destination is recorded as every other failure is. -/
theorem retryOne_tables {worker : Worker} {env : DownloadEnv} {outcome : WriteOutcome} {m : MediaRow}
    {t : MediaTables} {disk disk' : Disk} {e : Media.GoError}
    (h : Media.download env (mediaRowToMessage m) worker.dataDir disk = (disk', .error e))
    {dest : Media.LocalDestError} (hdest : e.localDest = some dest) :
    (retryOne worker env outcome m t disk).1 = (Store.markMediaDownloadFailed outcome m.key e.text
      (Media.classifyDownloadError e) worker.maxAttempts t).1 := by
  unfold retryOne
  rw [h]
  simp [(Media.download_localDest h hdest).2]

end WhatsAppMcp.Bridge.MediaRetry
