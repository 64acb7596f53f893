import WhatsAppMcp.Bridge.Api.Download

/-!
# The download of a missing audio file

`fetch_untranscribed`, `record_redownload_failure`, `redownload_audio` and
`update_local_path` of `transcriber/worker.py`, and the part of its loop that asks the
bridge for a file.

The worker knows a failure by the text that it makes of the answer.  A terminal text
retires the row, and every other one counts as an attempt.
-/

namespace WhatsAppMcp.Transcriber

open Bridge.Store (MediaRow MediaTables isInteger left500)
open Bridge.Media (Disk LocalDestError contains)
open Bridge.Api (Answer DownloadRequest Handler RequestEnv World downloadMedia outputDirUnwritable)

/-- `MAX_DOWNLOAD_ATTEMPTS`. -/
def maxDownloadAttempts : Int := 8

/-- The selection of `fetch_untranscribed`. -/
def Untranscribed (r : MediaRow) : Bool :=
  r.mediaType = .audio && !r.transcribed && !r.downloadPermanentlyFailed

/-- `permanent_patterns`. -/
def permanentPatterns : List String :=
  ["status code 403", "status code 404", "status code 410", "HTTP 403", "HTTP 404", "HTTP 410",
    "MISSING_MEDIA_INFO", "NOT_FOUND"]

/-- The error is a terminal one. -/
def permanent (errorText : String) : Bool := permanentPatterns.any (contains errorText)

/-- The row after a failure that is recorded. -/
def failed (errorText : String) (r : MediaRow) : MediaRow :=
  { r with
    downloadAttempts := if permanent errorText then maxDownloadAttempts else r.downloadAttempts + 1
    downloadLastError := some (left500 errorText)
    downloadPermanentlyFailed :=
      permanent errorText || r.downloadAttempts + 1 ≥ maxDownloadAttempts || r.downloadPermanentlyFailed }

theorem key_failed (errorText : String) (r : MediaRow) : (failed errorText r).key = r.key := rfl

/-- `record_redownload_failure`.  The statement may be lost, and the server refuses a
counter beyond `INTEGER`. -/
def recordRedownloadFailure (applied : Bool) (key : String × String) (errorText : String)
    (t : MediaTables) : MediaTables :=
  if applied && (permanent errorText ||
      (t.media.lookup key).all fun r => isInteger (r.downloadAttempts + 1)) then
    t.update key (failed errorText) (key_failed errorText)
  else t

/-- The failure gets into the database, and changes a counter there. -/
def Records (applied : Bool) (key : String × String) (errorText : String) (t : MediaTables) : Prop :=
  applied = true ∧ ∃ r, t.media.lookup key = some r ∧
    if permanent errorText then
      ¬ (r.downloadAttempts = maxDownloadAttempts ∧ r.downloadPermanentlyFailed = true)
    else isInteger (r.downloadAttempts + 1) = true

/-- A terminal failure moves a row to its last attempt, and every other one counts. -/
theorem counters_failed_iff {errorText : String} {r : MediaRow} :
    ((failed errorText r).downloadAttempts = r.downloadAttempts ∧
        (failed errorText r).downloadPermanentlyFailed = r.downloadPermanentlyFailed) ↔
      permanent errorText = true ∧ r.downloadAttempts = maxDownloadAttempts ∧
        r.downloadPermanentlyFailed = true := by
  unfold failed
  cases permanent errorText with
  | true =>
    show maxDownloadAttempts = r.downloadAttempts ∧ true = r.downloadPermanentlyFailed ↔ _
    rw [eq_comm, @eq_comm _ true]
    simp
  | false =>
    simp only [Bool.false_eq_true, if_false, false_and, iff_false, not_and]
    intro hattempts
    omega

/-- The counters are kept if and only if the failure does not get into the database, or
changes nothing there. -/
theorem counters_recordRedownloadFailure_iff {applied : Bool} {key : String × String} {errorText : String}
    {t : MediaTables} :
    (∀ k, (recordRedownloadFailure applied key errorText t).counters k = t.counters k) ↔
      ¬ Records applied key errorText t := by
  have hupdate : (∀ k, (t.update key (failed errorText) (key_failed errorText)).counters k = t.counters k) ↔
      ¬ ∃ r, t.media.lookup key = some r ∧
        ¬ (permanent errorText = true ∧ r.downloadAttempts = maxDownloadAttempts ∧
          r.downloadPermanentlyFailed = true) := by
    rw [Bridge.Store.counters_update_iff]
    simp only [counters_failed_iff, not_exists]
    exact forall_congr' fun r => by tauto
  unfold recordRedownloadFailure Records
  cases applied with
  | false => simp
  | true =>
    cases hterminal : permanent errorText with
    | true => simpa [hterminal] using hupdate
    | false =>
      cases hr : t.media.lookup key with
      | none => simpa [hterminal, hr] using hupdate
      | some r =>
        cases hint : isInteger (r.downloadAttempts + 1) with
        | true => simpa [hterminal, hr, hint] using hupdate
        | false => simp [hint]

/-- `update_local_path`. -/
def updateLocalPath (applied : Bool) (key : String × String) (localPath : String) (t : MediaTables) :
    MediaTables :=
  if applied then t.update key (fun r => { r with localPath := some localPath }) (fun _ => rfl) else t

/-- What the worker meets: the request at the bridge, an exception of its own, the text
that Python makes of an error answer, and whether its statement is applied. -/
structure RedownloadEnv where
  request : RequestEnv
  exception : Option String
  render : Answer → String
  applied : Bool

/-- `redownload_audio`, from the answer of the bridge. -/
def redownloadAudio (env : RedownloadEnv) (answer : Answer) : Option String × String :=
  match env.exception, answer with
  | some e, _ => (none, "request_error: " ++ e)
  | none, .error status _ _ => (none, "HTTP " ++ toString status ++ ": " ++ env.render answer)
  | none, .ok response => (some response.filePath, "")

/-- The text for an output directory that cannot be written. -/
def RedownloadEnv.destinationText (env : RedownloadEnv) (dest : LocalDestError) : String :=
  match env.exception with
  | some e => "request_error: " ++ e
  | none => "HTTP 500: " ++ env.render (outputDirUnwritable dest)

/-- The text knows the directory only. -/
theorem RedownloadEnv.destinationText_congr (env : RedownloadEnv) {dest dest' : LocalDestError}
    (h : dest.dir = dest'.dir) : env.destinationText dest = env.destinationText dest' := by
  unfold RedownloadEnv.destinationText outputDirUnwritable
  rw [h]

theorem redownloadAudio_unwritable (env : RedownloadEnv) (dest : LocalDestError) :
    redownloadAudio env (outputDirUnwritable dest) = (none, env.destinationText dest) := by
  unfold redownloadAudio RedownloadEnv.destinationText
  cases env.exception <;> rfl

/-- A path is one of an answer. -/
theorem redownloadAudio_some {env : RedownloadEnv} {answer : Answer} {path err : String}
    (h : redownloadAudio env answer = (some path, err)) :
    ∃ response, answer = .ok response ∧ path = response.filePath := by
  unfold redownloadAudio at h
  split at h <;> cases h
  exact ⟨_, rfl, rfl⟩

/-- The request of `redownload_audio`: `output_dir` is omitted. -/
def redownloadRequest (m : MediaRow) : DownloadRequest := ⟨m.messageId, m.chatJid, ""⟩

/-- `os.path.isfile` of the path of a row. -/
def isFile (disk : Disk) (m : MediaRow) : Bool :=
  match disk.get (m.localPath.getD "") with
  | some node => m.localPath.getD "" ≠ "" && !node.isDir
  | none => false

/-- One row of the loop, up to the transcription: the path of the audio file, where there
is one. -/
def obtainAudio (h : Handler) (env : RedownloadEnv) (m : MediaRow) (w : World) : World × Option String :=
  if isFile w.disk m then (w, m.localPath)
  else
    let (w, answer) := downloadMedia h env.request (some (redownloadRequest m)) w
    match redownloadAudio env answer with
    | (some path, err) =>
      if path ≠ "" then (⟨updateLocalPath env.applied m.key path w.tables, w.disk⟩, some path)
      else (⟨recordRedownloadFailure env.applied m.key err w.tables, w.disk⟩, none)
    | (none, err) => (⟨recordRedownloadFailure env.applied m.key err w.tables, w.disk⟩, none)

/-- An error of the bridge is recorded, whatever its code. -/
theorem obtainAudio_of_error {h : Handler} {env : RedownloadEnv} {m : MediaRow} {w w' : World}
    {status : Nat} {message code : String} (hmissing : isFile w.disk m = false)
    (hanswer : downloadMedia h env.request (some (redownloadRequest m)) w =
      (w', .error status message code)) :
    (obtainAudio h env m w).1.tables = recordRedownloadFailure env.applied m.key
      (redownloadAudio env (.error status message code)).2 w'.tables := by
  unfold obtainAudio
  rw [if_neg (by simp [hmissing]), hanswer]
  unfold redownloadAudio
  cases env.exception <;> rfl

end WhatsAppMcp.Transcriber
