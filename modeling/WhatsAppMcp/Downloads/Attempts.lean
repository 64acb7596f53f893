import WhatsAppMcp.Lib.Trace
import WhatsAppMcp.Bridge.MediaRetry.Worker
import WhatsAppMcp.Transcriber.Redownload

/-!
# The attempts to download

The three paths by which an attempt to download is recorded: the request at the bridge,
the retry worker of the bridge, and the transcriber, which asks the bridge for the file
and keeps a record of its own.

* `Attempt.FailsAtDestination`: the local destination cannot be created or written, that is,
  the download or the copy comes back with a `LocalDestError`.
* `Attempt.Spared` is the condition under which such a failure leaves every counter as it
  was.  Only the request has it by itself.
* `counters_kept_iff` is about every run of such attempts.
-/

namespace WhatsAppMcp.Downloads

open Bridge.Store (MediaRow MediaTables WriteOutcome)
open Bridge.Media (DownloadEnv LocalDestError)
open Bridge.Api (DestinationFails DownloadRequest Handler RequestEnv Serves World downloadMedia
  outputDirUnwritable)
open Bridge.MediaRetry (Worker mediaRowToMessage retryOne)
open Transcriber (RedownloadEnv obtainAudio recordRedownloadFailure redownloadAudio redownloadRequest
  isFile)
open Trace (Along)

/-- One attempt: a request of a client, one row of the retry worker, or one row of the
transcriber. -/
inductive Attempt where
  | request (h : Handler) (env : RequestEnv) (req : DownloadRequest)
  | retry (worker : Worker) (env : DownloadEnv) (outcome : WriteOutcome) (m : MediaRow)
  | redownload (h : Handler) (env : RedownloadEnv) (m : MediaRow)

/-- What an attempt does. -/
def Attempt.run (w : World) : Attempt → World
  | .request h env req => (downloadMedia h env (some req) w).1
  | .retry worker env outcome m =>
    let after := retryOne worker env outcome m w.tables w.disk
    ⟨after.1, after.2⟩
  | .redownload h env m => (obtainAudio h env m w).1

/-- The local destination cannot be created or written. -/
def Attempt.FailsAtDestination : Attempt → World → Prop
  | .request h env req, w =>
    ∃ msg, Serves env req w msg ∧ DestinationFails h env req msg.toMessageRow w
  | .retry worker env _ m, w =>
    ∃ disk e, Bridge.Media.download env (mediaRowToMessage m) worker.dataDir w.disk = (disk, .error e) ∧
      e.localDest ≠ none
  | .redownload h env m, w =>
    isFile w.disk m = false ∧ ∃ msg, Serves env.request (redownloadRequest m) w msg ∧
      DestinationFails h env.request (redownloadRequest m) msg.toMessageRow w

/-- Nothing is recorded for the failure: the attempt is a request of a client, or the
record does not get into the database.  The text of the transcriber's record blames the
directory where the file of the message is wanted. -/
def Attempt.Spared : Attempt → World → Prop
  | .request _ _ _, _ => True
  | .retry worker _ outcome m, w => w.tables.Records outcome m.key worker.maxAttempts = false
  | .redownload h env m, w =>
    ∀ msg, w.tables.messages.lookup m.key = some msg → ∀ dest : LocalDestError,
      dest.dir = Bridge.Media.dir (h.wantPath (redownloadRequest m) msg.toMessageRow) →
        ¬ Transcriber.Records env.applied m.key (env.destinationText dest) w.tables

/-- The attempts and the permanence of every row are as they were. -/
def Attempt.KeepsCounters (a : Attempt) (w : World) : Prop :=
  ∀ k, (a.run w).tables.counters k = w.tables.counters k

/-- One attempt that fails at the destination keeps the counters if and only if nothing is
recorded for it. -/
theorem keepsCounters_iff {a : Attempt} {w : World} (hfail : a.FailsAtDestination w) :
    a.KeepsCounters w ↔ a.Spared w := by
  cases a with
  | request h env req =>
    obtain ⟨msg, hserves, hdest⟩ := hfail
    obtain ⟨disk, dest, -, hanswer⟩ := Bridge.Api.downloadMedia_of_destinationFails hserves hdest
    show (∀ k, (downloadMedia h env (some req) w).1.tables.counters k = w.tables.counters k) ↔ True
    simp [hanswer]
  | retry worker env outcome m =>
    obtain ⟨disk, e, hdownload, hdest⟩ := hfail
    obtain ⟨dest, hdest⟩ := Option.ne_none_iff_exists'.mp hdest
    show (∀ k, (retryOne worker env outcome m w.tables w.disk).1.counters k = w.tables.counters k) ↔ _
    rw [Bridge.MediaRetry.retryOne_tables hdownload hdest]
    exact Bridge.Store.counters_markMediaDownloadFailed_iff _ _
  | redownload h env m =>
    obtain ⟨hmissing, msg, hserves, hdest⟩ := hfail
    obtain ⟨disk, dest, hdir, hanswer⟩ := Bridge.Api.downloadMedia_of_destinationFails hserves hdest
    have hspared : Attempt.Spared (.redownload h env m) w ↔
        ¬ Transcriber.Records env.applied m.key (env.destinationText dest) w.tables := by
      refine ⟨fun hall => hall msg hserves.found dest hdir, fun hnot msg' hmsg' dest' hdir' => ?_⟩
      obtain rfl := Option.some.inj (hserves.found.symm.trans hmsg')
      rwa [env.destinationText_congr (hdir'.trans hdir.symm)]
    rw [hspared]
    show (∀ k, (obtainAudio h env m w).1.tables.counters k = w.tables.counters k) ↔ _
    rw [Transcriber.obtainAudio_of_error hmissing hanswer]
    show (∀ k, (recordRedownloadFailure env.applied m.key
      (redownloadAudio env (outputDirUnwritable dest)).2 w.tables).counters k = _) ↔ _
    rw [Transcriber.redownloadAudio_unwritable]
    exact Transcriber.counters_recordRedownloadFailure_iff

/-- In every run of attempts that fail at the destination, the attempts for which nothing
is recorded are those that keep the counters.  A run of only such attempts ends with the
counters that it started with. -/
theorem counters_kept_iff {w : World} {attempts : List Attempt}
    (hfail : Along Attempt.run Attempt.FailsAtDestination w attempts) :
    (Along Attempt.run Attempt.KeepsCounters w attempts ↔ Along Attempt.run Attempt.Spared w attempts) ∧
      (Along Attempt.run Attempt.Spared w attempts →
        ∀ k, (attempts.foldl Attempt.run w).tables.counters k = w.tables.counters k) := by
  have hkept : Along Attempt.run Attempt.KeepsCounters w attempts ↔
      Along Attempt.run Attempt.Spared w attempts := by
    constructor
    · intro h
      exact (hfail.and h).mono fun w a ha => (keepsCounters_iff ha.1).mp ha.2
    · intro h
      exact (hfail.and h).mono fun w a ha => (keepsCounters_iff ha.1).mpr ha.2
  refine ⟨hkept, fun hspared => ?_⟩
  apply (hkept.mpr hspared).relates (R := fun v w : World => ∀ k, w.tables.counters k = v.tables.counters k)
  · exact fun _ _ => rfl
  · exact fun _ _ _ hab hbc k => (hbc k).trans (hab k)
  · exact fun _ _ ha => ha

/-! ## A data directory on a read-only mount -/

/-- The error of `os.MkdirAll` on a read-only mount. -/
def readOnly : Bridge.Media.PathError := ⟨"mkdir", "/data/media", "read-only file system", false⟩

/-- No directory can be made. -/
def readOnlyEnv : DownloadEnv := { Bridge.Api.staleUrl with mkdir := some (readOnly, 0) }

/-- The image after one attempt that failed, and no file. -/
def sampleWorld : World :=
  ⟨Bridge.Store.markMediaDownloadFailed .committed ("M1", "15@lid") "stale" false 3
    (Bridge.Api.sampleTables none) |>.1, Bridge.Api.sampleDisk⟩

/-- A client asks for the image. -/
def sampleRequest : Attempt :=
  .request Bridge.Api.sampleHandler { Bridge.Api.sampleRequestEnv with download := readOnlyEnv }
    Bridge.Api.sampleDownload

/-- The retry worker takes up the row. -/
def sampleRetry : Attempt :=
  .retry (Bridge.MediaRetry.new "/data" 3) readOnlyEnv .committed
    { Bridge.Api.sampleRow with downloadAttempts := 1 }

/-- The request and the retry meet the mount. -/
theorem sample_failsAtDestination :
    Along Attempt.run Attempt.FailsAtDestination sampleWorld [sampleRequest, sampleRetry] := by
  have hserves : Serves { Bridge.Api.sampleRequestEnv with download := readOnlyEnv }
      Bridge.Api.sampleDownload sampleWorld Bridge.Api.sampleImage :=
    ⟨by decide, by decide, rfl, rfl, by decide⟩
  have hfails : DestinationFails Bridge.Api.sampleHandler
      { Bridge.Api.sampleRequestEnv with download := readOnlyEnv } Bridge.Api.sampleDownload
      Bridge.Api.sampleImage.toMessageRow sampleWorld := .download rfl rfl nofun
  exact ⟨⟨_, hserves, hfails⟩, ⟨_, _, rfl, nofun⟩, trivial⟩

theorem counters_kept_iff_of_sampleRequest :
    let attempts := [sampleRequest, sampleRetry]
    (Along Attempt.run Attempt.KeepsCounters sampleWorld attempts ↔
        Along Attempt.run Attempt.Spared sampleWorld attempts) ∧
      (Along Attempt.run Attempt.Spared sampleWorld attempts →
        ∀ k, (attempts.foldl Attempt.run sampleWorld).tables.counters k =
          sampleWorld.tables.counters k) :=
  counters_kept_iff sample_failsAtDestination

/-- The retry worker counts an attempt for the mount. -/
theorem counters_rise_of_sampleRetry :
    ¬ ∀ (w : World) (attempts : List Attempt), Along Attempt.run Attempt.FailsAtDestination w attempts →
      ∀ k, (attempts.foldl Attempt.run w).tables.counters k = w.tables.counters k := by
  intro hclaim
  have hkept := hclaim sampleWorld [sampleRetry] ⟨⟨_, _, rfl, nofun⟩, trivial⟩ ("M1", "15@lid")
  revert hkept
  decide +kernel

end WhatsAppMcp.Downloads
