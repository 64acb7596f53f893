import WhatsAppMcp.Lib.Trace
import WhatsAppMcp.Transcriber.Redownload

/-!
# The budget of a voice note

The transcriber asks the bridge for an audio file that is missing, and gives the row up after
`MAX_DOWNLOAD_ATTEMPTS` downloads that failed.  Two services keep the counter of the row: the
bridge raises it before it answers, and the transcriber raises it once more for the answer.

* `Cycle.run` is one cycle of the transcriber for one row, with the bridge that it asks.
* `Cycle.Single` is the condition under which a failed download is counted once.
* `budget_of_single` is about every run of such cycles.
-/

namespace WhatsAppMcp.Downloads

open Bridge.Store (MediaRow MediaTables WriteOutcome MessageRow isInteger markMediaDownloaded
  markMediaDownloadFailed)
open Bridge.Media (Disk GoError asLocalDestError classifyDownloadError)
open Bridge.Api
open Transcriber
open Trace (Along)

/-! ## Cycles -/

/-- What a cycle of the transcriber meets: the handler of the bridge, the download, and the files as
they are then. -/
structure Cycle where
  handler : Handler
  env : RedownloadEnv
  disk : Disk

namespace Cycle

/-- The row that the cycle takes up. -/
def row (k : String × String) (t : MediaTables) : Option MediaRow :=
  (t.media.lookup k).filter Untranscribed

/-- The tables after the cycle. -/
def run (k : String × String) (t : MediaTables) (c : Cycle) : MediaTables :=
  match row k t with
  | some m => (obtainAudio c.handler c.env m ⟨t, c.disk⟩).1.tables
  | none => t

/-- The answer of the bridge, where the cycle asks it. -/
def answer (k : String × String) (t : MediaTables) (c : Cycle) : Option Answer :=
  match row k t with
  | some m =>
    if isFile c.disk m then none
    else some (downloadMedia c.handler c.env.request (some (redownloadRequest m)) ⟨t, c.disk⟩).2
  | none => none

/-- The failed downloads since the last success. -/
def since (k : String × String) (n : Int) (t : MediaTables) (c : Cycle) : Int :=
  match c.answer k t with
  | none => n
  | some (.ok _) => 0
  | some (.error ..) => n + 1

/-- One cycle, with the count of the failed downloads. -/
def step (k : String × String) (s : MediaTables × Int) (c : Cycle) : MediaTables × Int :=
  (c.run k s.1, c.since k s.2 s.1)

end Cycle

/-! ## Failed downloads -/

/-- The bridge cannot get the media, and the error is neither structural nor one of the
destination. -/
def FailsRetryably (h : Handler) (env : RequestEnv) (req : DownloadRequest) (w : World) : Prop :=
  ∃ msg w₁ disk e, downloadMedia h env (some req) w = fetchMedia h env req msg (h.outDir req) w₁ ∧
    w₁.tables = w.tables ∧
    Bridge.Media.download env.download msg (h.outDir req) w₁.disk = (disk, .error e) ∧
    asLocalDestError e = none ∧ classifyDownloadError e = false

/-- Such a failure is recorded, and the record decides about the answer. -/
theorem FailsRetryably.outcome {h : Handler} {env : RequestEnv} {req : DownloadRequest} {w : World}
    (hfails : FailsRetryably h env req w) : ∃ errMsg,
      (downloadMedia h env (some req) w).1.tables =
        (markMediaDownloadFailed env.record req.key errMsg false h.maxDownloadAttempts w.tables).1 ∧
      (downloadMedia h env (some req) w).2 =
        if (markMediaDownloadFailed env.record req.key errMsg false h.maxDownloadAttempts w.tables).2.1 then
          permanentlyUnavailable
        else retryPending := by
  obtain ⟨msg, w₁, disk, e, hmedia, htables, hdownload, hlocal, hstructural⟩ := hfails
  refine ⟨e.text, ?_⟩
  rw [hmedia, fetchMedia, hdownload, ← htables]
  dsimp only [recordFailure]
  rw [hlocal, hstructural]
  exact ⟨rfl, rfl⟩

/-! ## Runs -/

namespace Cycle

/-- What a run of the transcriber meets.  The answer of the bridge arrives; a download works, or fails
with an error that is neither structural nor one of the destination; and the text of an answer
that promises a retry has no terminal pattern. -/
def Admissible (k : String × String) (c : Cycle) (s : MediaTables × Int) : Prop :=
  c.env.exception = none ∧
    permanent ("HTTP 503: " ++ c.env.render retryPending) = false ∧
    ∀ m, row k s.1 = some m → isFile c.disk m = false →
      FailsRetryably c.handler c.env.request (redownloadRequest m) ⟨s.1, c.disk⟩ ∨
        ∃ response, response.filePath ≠ "" ∧
          (downloadMedia c.handler c.env.request (some (redownloadRequest m)) ⟨s.1, c.disk⟩).2 = .ok response

/-- A failed download gets into the database once, and not as the last one that the bridge allows;
a success gets there. -/
def Single (k : String × String) (c : Cycle) (s : MediaTables × Int) : Prop :=
  ∀ m, row k s.1 = some m → isFile c.disk m = false →
    (FailsRetryably c.handler c.env.request (redownloadRequest m) ⟨s.1, c.disk⟩ →
      (s.1.Records c.env.request.record k c.handler.maxDownloadAttempts ≠
        (c.env.applied && isInteger (m.downloadAttempts + 1))) ∧
      (c.env.request.record = .refused ∨ m.downloadAttempts + 1 < c.handler.maxDownloadAttempts)) ∧
    (¬ FailsRetryably c.handler c.env.request (redownloadRequest m) ⟨s.1, c.disk⟩ →
      c.env.request.record.applied = true ∧ c.env.request.heal.applied = true)

/-- A failed download raises the counter by one. -/
def CountsOnce (k : String × String) (c : Cycle) (s : MediaTables × Int) : Prop :=
  ∀ status message code, c.answer k s.1 = some (.error status message code) →
    ∃ attempts permanently permanently', s.1.counters k = some (attempts, permanently) ∧
      (c.run k s.1).counters k = some (attempts + 1, permanently')

end Cycle

/-- The counter of the row is the count of the failed downloads since the last success, and the row is
given up only when this has reached the limit of the transcriber. -/
def Budget (k : String × String) (s : MediaTables × Int) : Prop :=
  0 ≤ s.2 ∧ ∃ permanently, s.1.counters k = some (s.2, permanently) ∧
    (permanently = true → maxDownloadAttempts ≤ s.2)

/-! ## One cycle -/

section Cycle

variable {k : String × String} {t : MediaTables} {m : MediaRow} {c : Cycle} {n : Int}

/-- The row that is taken up is not given up. -/
theorem row_open (hrow : Cycle.row k t = some m) :
    t.media.lookup k = some m ∧ m.downloadPermanentlyFailed = false ∧ m.key = k := by
  obtain ⟨hlookup, hselected⟩ := Option.filter_eq_some_iff.mp hrow
  unfold Untranscribed at hselected
  simp only [Bool.and_eq_true, Bool.not_eq_true'] at hselected
  exact ⟨hlookup, hselected.2, Table.lookup_key hlookup⟩

theorem Budget.attempts (hb : Budget k (t, n)) (hlookup : t.media.lookup k = some m) :
    m.downloadAttempts = n := by
  obtain ⟨-, permanently, hcounters, -⟩ := hb
  unfold MediaTables.counters at hcounters
  rw [hlookup] at hcounters
  exact (Prod.mk.inj (Option.some.inj hcounters)).1

/-- A retry is promised for a failure that is not the last one. -/
theorem markMediaDownloadFailed_pending {outcome : WriteOutcome} {errMsg : String} {maxAttempts : Int}
    (hlookup : t.media.lookup k = some m) (hopen : m.downloadPermanentlyFailed = false)
    (hlimit : outcome = .refused ∨ m.downloadAttempts + 1 < maxAttempts) :
    (markMediaDownloadFailed outcome k errMsg false maxAttempts t).2.1 = false := by
  cases hfailing : t.failing k maxAttempts with
  | none =>
    unfold markMediaDownloadFailed
    rw [hfailing]
    cases outcome <;> rfl
  | some r =>
    have hr := (Option.filter_eq_some_iff.mp hfailing).1
    rw [hlookup] at hr
    obtain rfl := Option.some.inj hr
    rcases hlimit with rfl | hlimit
    · rfl
    · have hfalse : (m.failed errMsg false maxAttempts).downloadPermanentlyFailed = false := by
        show (m.downloadPermanentlyFailed || false || decide (m.downloadAttempts + 1 ≥ maxAttempts)) = false
        rw [hopen]
        simpa using hlimit
      unfold markMediaDownloadFailed
      rw [hfailing]
      cases outcome with
      | refused => rfl
      | committed => exact hfalse
      | unconfirmed _ => exact hfalse

/-- The record of the bridge raises the counter, and gives nothing up. -/
theorem counters_failed {outcome : WriteOutcome} {errMsg : String} {maxAttempts : Int}
    (hlookup : t.media.lookup k = some m) (hopen : m.downloadPermanentlyFailed = false)
    (hrecords : t.Records outcome k maxAttempts = true) (hlimit : m.downloadAttempts + 1 < maxAttempts) :
    (markMediaDownloadFailed outcome k errMsg false maxAttempts t).1.counters k =
      some (m.downloadAttempts + 1, false) := by
  obtain ⟨r, hr, hafter, -⟩ := Bridge.Store.markMediaDownloadFailed_of_records errMsg false hrecords
  rw [hlookup] at hr
  obtain rfl := Option.some.inj hr
  rw [hafter, MediaTables.counters, MediaTables.lookup_update, if_pos rfl, hlookup]
  show some (m.downloadAttempts + 1, m.downloadPermanentlyFailed || false || decide (_ ≥ _)) = _
  rw [hopen]
  simpa using hlimit

/-- The record of the transcriber raises the counter, and gives the row up at its limit. -/
theorem counters_recordRedownloadFailure {errorText : String} {applied : Bool}
    (hlookup : t.media.lookup k = some m) (hopen : m.downloadPermanentlyFailed = false)
    (hpending : permanent errorText = false)
    (happlied : (applied && isInteger (m.downloadAttempts + 1)) = true) :
    (recordRedownloadFailure applied k errorText t).counters k =
      some (m.downloadAttempts + 1, decide (maxDownloadAttempts ≤ m.downloadAttempts + 1)) := by
  obtain ⟨happlied, hinteger⟩ := Bool.and_eq_true_iff.mp happlied
  unfold recordRedownloadFailure
  rw [hlookup, happlied, hpending]
  simp only [Option.all_some, hinteger, Bool.or_true, Bool.and_self, if_true]
  rw [MediaTables.counters, MediaTables.lookup_update, if_pos rfl, hlookup]
  simp [failed, hpending, hopen]

/-- What the bridge records could be recorded by the transcriber as well. -/
theorem isInteger_of_records {outcome : WriteOutcome} {maxAttempts : Int}
    (hlookup : t.media.lookup k = some m) (hrecords : t.Records outcome k maxAttempts = true) :
    outcome ≠ .refused ∧ isInteger (m.downloadAttempts + 1) = true := by
  obtain ⟨happlied, hsome⟩ := Bool.and_eq_true_iff.mp hrecords
  obtain ⟨r, hfailing⟩ := Option.isSome_iff_exists.mp hsome
  obtain ⟨hr, hinteger⟩ := Option.filter_eq_some_iff.mp hfailing
  rw [hlookup] at hr
  obtain rfl := Option.some.inj hr
  refine ⟨?_, (Bool.and_eq_true_iff.mp hinteger).1⟩
  rintro rfl
  cases happlied

/-- Both services record a failed download for which a retry is promised. -/
theorem run_of_fails (hrow : Cycle.row k t = some m) (hmissing : isFile c.disk m = false)
    (hexception : c.env.exception = none)
    (hlimit : c.env.request.record = .refused ∨ m.downloadAttempts + 1 < c.handler.maxDownloadAttempts)
    (hfails : FailsRetryably c.handler c.env.request (redownloadRequest m) ⟨t, c.disk⟩) :
    c.answer k t = some retryPending ∧ ∃ errMsg, c.run k t =
      recordRedownloadFailure c.env.applied k ("HTTP 503: " ++ c.env.render retryPending)
        (markMediaDownloadFailed c.env.request.record k errMsg false c.handler.maxDownloadAttempts t).1 := by
  obtain ⟨hlookup, hopen, hkey⟩ := row_open hrow
  obtain ⟨errMsg, htables, hanswer⟩ := hfails.outcome
  have hreq : (redownloadRequest m).key = k := hkey
  rw [hreq] at htables hanswer
  rw [markMediaDownloadFailed_pending hlookup hopen hlimit] at hanswer
  have hanswer' : (downloadMedia c.handler c.env.request (some (redownloadRequest m)) ⟨t, c.disk⟩).2 =
      retryPending := hanswer
  refine ⟨?_, errMsg, ?_⟩
  · unfold Cycle.answer
    rw [hrow]
    simp [hmissing, hanswer']
  · have herror := obtainAudio_of_error hmissing (Prod.ext rfl hanswer')
    unfold Cycle.run
    rw [hrow]
    show (obtainAudio c.handler c.env m ⟨t, c.disk⟩).1.tables = _
    rw [herror, hkey, htables]
    unfold redownloadAudio
    rw [hexception]
    rfl

/-- A failed download that is recorded once raises the counter by one. -/
theorem Budget.failed (hb : Budget k (t, n)) (hrow : Cycle.row k t = some m)
    (hmissing : isFile c.disk m = false) (hadmissible : c.Admissible k (t, n)) (hsingle : c.Single k (t, n))
    (hfails : FailsRetryably c.handler c.env.request (redownloadRequest m) ⟨t, c.disk⟩) :
    c.answer k t = some retryPending ∧
      ∃ permanently, (c.run k t).counters k = some (n + 1, permanently) ∧
        (permanently = true → maxDownloadAttempts ≤ n + 1) := by
  obtain ⟨hlookup, hopen, -⟩ := row_open hrow
  obtain rfl := hb.attempts hlookup
  obtain ⟨hexception, hpending, -⟩ := hadmissible
  obtain ⟨honce, hlimit⟩ := (hsingle m hrow hmissing).1 hfails
  obtain ⟨hanswer, errMsg, hrun⟩ := run_of_fails hrow hmissing hexception hlimit hfails
  refine ⟨hanswer, ?_⟩
  rw [hrun]
  cases hrecords : t.Records c.env.request.record k c.handler.maxDownloadAttempts with
  | true =>
    obtain ⟨hmade, hinteger⟩ := isInteger_of_records hlookup hrecords
    have hlost : c.env.applied = false := by
      rw [hrecords, hinteger, Bool.and_true] at honce
      exact Bool.eq_false_iff.mpr fun h => honce h.symm
    have hcounters : (markMediaDownloadFailed c.env.request.record k errMsg false
        c.handler.maxDownloadAttempts t).1.counters k = some (m.downloadAttempts + 1, false) :=
      counters_failed hlookup hopen hrecords (hlimit.resolve_left hmade)
    refine ⟨false, ?_, nofun⟩
    rw [hlost]
    exact hcounters
  | false =>
    have happlied : (c.env.applied && isInteger (m.downloadAttempts + 1)) = true := by
      rw [hrecords] at honce
      exact Bool.eq_true_of_not_eq_false fun h => honce h.symm
    rw [Bridge.Store.markMediaDownloadFailed_of_not_records errMsg false hrecords]
    exact ⟨_, counters_recordRedownloadFailure hlookup hopen hpending happlied,
      fun h => of_decide_eq_true h⟩

/-- A failed download that both services record raises the counter by two. -/
theorem run_twice (hrow : Cycle.row k t = some m) (hmissing : isFile c.disk m = false)
    (hadmissible : c.Admissible k (t, n))
    (hrecords : t.Records c.env.request.record k c.handler.maxDownloadAttempts = true)
    (happlied : (c.env.applied && isInteger (m.downloadAttempts + 1 + 1)) = true)
    (hlimit : m.downloadAttempts + 1 < c.handler.maxDownloadAttempts)
    (hfails : FailsRetryably c.handler c.env.request (redownloadRequest m) ⟨t, c.disk⟩) :
    c.answer k t = some retryPending ∧ (c.run k t).counters k = some (m.downloadAttempts + 1 + 1,
      decide (maxDownloadAttempts ≤ m.downloadAttempts + 1 + 1)) := by
  obtain ⟨hlookup, hopen, -⟩ := row_open hrow
  obtain ⟨hanswer, errMsg, hrun⟩ := run_of_fails hrow hmissing hadmissible.1 (Or.inr hlimit) hfails
  refine ⟨hanswer, ?_⟩
  have hcounters : (markMediaDownloadFailed c.env.request.record k errMsg false
      c.handler.maxDownloadAttempts t).1.counters k = some (m.downloadAttempts + 1, false) :=
    counters_failed hlookup hopen hrecords hlimit
  obtain ⟨m', hlookup', hpair⟩ := Option.map_eq_some_iff.mp hcounters
  obtain ⟨hattempts, hopen'⟩ := Prod.mk.inj hpair
  rw [← hattempts] at happlied
  rw [hrun, counters_recordRedownloadFailure hlookup' hopen' hadmissible.2.1 happlied, hattempts]

/-- Where the bridge has the file in its data directory, it clears the failures of the row. -/
theorem serveCachedMedia_hit {env : RequestEnv} {req : DownloadRequest} {msg : MessageRow} {outDir : String}
    {w w' : World} {response : DownloadResponse} (hreq : req.key = k)
    (hlookup : w.tables.media.lookup k = some m) (hopen : m.downloadPermanentlyFailed = false)
    (hattempts : 0 ≤ m.downloadAttempts) (hheal : env.heal.applied = true)
    (hhit : serveCachedMedia env req msg outDir w = (w', .hit response)) :
    w'.tables.counters k = some (0, false) := by
  have hkey : m.key = k := Table.lookup_key hlookup
  have hhealed : ∀ localPath, (heal env.heal m localPath w.tables).counters k = some (0, false) := by
    intro localPath
    unfold heal
    split
    · unfold markMediaDownloaded
      rw [if_pos hheal, MediaTables.counters, MediaTables.lookup_update, hkey, if_pos rfl, hlookup]
      rfl
    · next hclean =>
      simp only [hopen, Bool.false_or, decide_eq_true_eq] at hclean
      rw [MediaTables.counters, hlookup, Option.map_some, hopen, show m.downloadAttempts = 0 by omega]
  unfold serveCachedMedia at hhit
  split at hhit
  · cases hhit
  · next row hrow =>
    have hm : row = m := by
      split at hrow
      · cases hrow
      · rw [hreq, hlookup] at hrow
        exact (Option.some.inj hrow).symm
    subst hm
    dsimp only at hhit
    split at hhit
    · cases hhit
    split at hhit
    · unfold serveFile at hhit
      split at hhit
      · split at hhit
        · obtain ⟨rfl, -⟩ := Prod.mk.inj hhit
          exact hhealed _
        · split at hhit <;> cases hhit
      · obtain ⟨rfl, -⟩ := Prod.mk.inj hhit
        exact hhealed _
    · cases hhit
    · cases hhit

/-- A download that works and is recorded clears the failures of the row. -/
theorem downloadMedia_ok {h : Handler} {env : RequestEnv} {req : DownloadRequest} {w : World}
    {response : DownloadResponse} (hreq : req.key = k) (hlookup : w.tables.media.lookup k = some m)
    (hopen : m.downloadPermanentlyFailed = false) (hattempts : 0 ≤ m.downloadAttempts)
    (hrecord : env.record.applied = true) (hheal : env.heal.applied = true)
    (hok : (downloadMedia h env (some req) w).2 = .ok response) :
    (downloadMedia h env (some req) w).1.tables.counters k = some (0, false) := by
  rcases downloadMedia_cases h env req w with ⟨status, message, code, -, hrefused⟩ | ⟨msg, -, -, hserved⟩
  · rw [hrefused] at hok
    cases hok
  · rw [hserved] at hok ⊢
    unfold serveMedia at hok ⊢
    split at hok
    · cases hok
    · next w₁ response' hhit => exact serveCachedMedia_hit hreq hlookup hopen hattempts hheal hhit
    · next w₁ hmiss =>
      have htables := serveCachedMedia_tables hmiss fun _ => nofun
      unfold fetchMedia at hok ⊢
      split at hok
      · unfold recordFailure at hok
        split at hok
        · cases hok
        · dsimp only at hok
          split at hok <;> cases hok
      · show (markMediaDownloaded env.record req.key _ w₁.tables).counters k = _
        rw [hreq, htables]
        unfold markMediaDownloaded
        rw [if_pos hrecord, MediaTables.counters, MediaTables.lookup_update, if_pos rfl, hlookup]
        rfl

/-- The path of the file is no counter. -/
theorem counters_updateLocalPath (applied : Bool) (localPath : String) :
    (updateLocalPath applied k localPath t).counters k = t.counters k := by
  have hkept : ∀ k', (t.update k (fun r => { r with localPath := some localPath }) fun _ => rfl).counters k' =
      t.counters k' := Bridge.Store.counters_update_iff.mpr fun _ _ => ⟨rfl, rfl⟩
  unfold updateLocalPath
  split
  · exact hkept k
  · rfl

/-- The path of an answer is recorded. -/
theorem obtainAudio_of_ok {h : Handler} {env : RedownloadEnv} {w w' : World} {response : DownloadResponse}
    (hmissing : isFile w.disk m = false) (hexception : env.exception = none) (hpath : response.filePath ≠ "")
    (hanswer : downloadMedia h env.request (some (redownloadRequest m)) w = (w', .ok response)) :
    (obtainAudio h env m w).1.tables = updateLocalPath env.applied m.key response.filePath w'.tables := by
  have hresult : redownloadAudio env (.ok response) = (some response.filePath, "") := by
    unfold redownloadAudio
    rw [hexception]
  unfold obtainAudio
  rw [if_neg (by simp [hmissing]), hanswer]
  dsimp only
  rw [hresult]
  dsimp only
  rw [if_pos hpath]

/-- A download that works and is recorded starts the count again. -/
theorem Budget.restarted {response : DownloadResponse} (hb : Budget k (t, n)) (hrow : Cycle.row k t = some m)
    (hmissing : isFile c.disk m = false) (hadmissible : c.Admissible k (t, n)) (hpath : response.filePath ≠ "")
    (hok : (downloadMedia c.handler c.env.request (some (redownloadRequest m)) ⟨t, c.disk⟩).2 = .ok response)
    (hrecord : c.env.request.record.applied = true) (hheal : c.env.request.heal.applied = true) :
    c.answer k t = some (.ok response) ∧ (c.run k t).counters k = some (0, false) := by
  obtain ⟨hlookup, hopen, hkey⟩ := row_open hrow
  have hattempts := hb.attempts hlookup
  have hreq : (redownloadRequest m).key = k := hkey
  have hcounters := downloadMedia_ok (h := c.handler) hreq hlookup hopen (hattempts ▸ hb.1) hrecord hheal hok
  refine ⟨?_, ?_⟩
  · unfold Cycle.answer
    rw [hrow]
    simp [hmissing, hok]
  · unfold Cycle.run
    rw [hrow]
    show (obtainAudio c.handler c.env m ⟨t, c.disk⟩).1.tables.counters k = _
    rw [obtainAudio_of_ok hmissing hadmissible.1 hpath (Prod.ext rfl hok), hkey, counters_updateLocalPath]
    exact hcounters

/-- One cycle keeps the budget, and counts a failed download once. -/
theorem Budget.step {s : MediaTables × Int} (hb : Budget k s) (hadmissible : c.Admissible k s)
    (hsingle : c.Single k s) : Budget k (Cycle.step k s c) ∧ c.CountsOnce k s := by
  obtain ⟨t, n⟩ := s
  cases hrow : Cycle.row k t with
  | none =>
    have hanswer : c.answer k t = none := by
      unfold Cycle.answer
      rw [hrow]
    have hrun : c.run k t = t := by
      unfold Cycle.run
      rw [hrow]
    refine ⟨?_, fun status message code herror => ?_⟩
    · show Budget k (c.run k t, c.since k n t)
      rw [Cycle.since, hanswer, hrun]
      exact hb
    · rw [hanswer] at herror
      cases herror
  | some m =>
    cases hmissing : isFile c.disk m with
    | true =>
      have hanswer : c.answer k t = none := by
        unfold Cycle.answer
        rw [hrow]
        simp [hmissing]
      have hrun : c.run k t = t := by
        unfold Cycle.run
        rw [hrow]
        show (obtainAudio c.handler c.env m ⟨t, c.disk⟩).1.tables = t
        rw [obtainAudio, if_pos hmissing]
      refine ⟨?_, fun status message code herror => ?_⟩
      · show Budget k (c.run k t, c.since k n t)
        rw [Cycle.since, hanswer, hrun]
        exact hb
      · rw [hanswer] at herror
        cases herror
    | false =>
      by_cases hfails : FailsRetryably c.handler c.env.request (redownloadRequest m) ⟨t, c.disk⟩
      · obtain ⟨hanswer, permanently, hcounters, hlimit⟩ :=
          hb.failed hrow hmissing hadmissible hsingle hfails
        obtain ⟨hnonneg, before, hbefore, -⟩ := hb
        refine ⟨?_, fun _ _ _ _ => ⟨n, before, permanently, hbefore, hcounters⟩⟩
        show Budget k (c.run k t, c.since k n t)
        rw [Cycle.since, hanswer]
        exact ⟨Int.add_nonneg hnonneg Int.one_nonneg, permanently, hcounters, hlimit⟩
      · obtain ⟨response, hpath, hok⟩ := (hadmissible.2.2 m hrow hmissing).resolve_left hfails
        obtain ⟨hrecord, hheal⟩ := (hsingle m hrow hmissing).2 hfails
        obtain ⟨hanswer, hcounters⟩ := hb.restarted hrow hmissing hadmissible hpath hok hrecord hheal
        refine ⟨?_, fun status message code herror => ?_⟩
        · show Budget k (c.run k t, c.since k n t)
          rw [Cycle.since, hanswer]
          exact ⟨Int.le_refl 0, false, hcounters, nofun⟩
        · rw [hanswer] at herror
          cases herror

end Cycle

/-! ## Every run -/

/-- In every run whose failed downloads are each recorded once, each of them raises the counter by
one, and the row is given up only when so many have failed since the last success. -/
theorem budget_of_single {k : String × String} {s : MediaTables × Int} {cycles : List Cycle}
    (hstart : Budget k s) (hadmissible : Along (Cycle.step k) (Cycle.Admissible k) s cycles)
    (hsingle : Along (Cycle.step k) (Cycle.Single k) s cycles) :
    Along (Cycle.step k) (Cycle.CountsOnce k) s cycles ∧ Budget k (cycles.foldl (Cycle.step k) s) := by
  induction cycles generalizing s with
  | nil => exact ⟨trivial, hstart⟩
  | cons c cycles ih =>
    obtain ⟨hnext, hcounts⟩ := hstart.step hadmissible.1 hsingle.1
    obtain ⟨hrest, hend⟩ := ih hnext hadmissible.2 hsingle.2
    exact ⟨⟨hcounts, hrest⟩, hend⟩

/-! ## A stale voice note -/

/-- The message of the voice note. -/
def sampleAudio : Bridge.Store.StoredMessage := { sampleImage with mediaType := "audio" }

/-- A voice note that was never downloaded. -/
def sampleVoice : MediaTables where
  messages := ⟨[sampleAudio], List.nodup_singleton _⟩
  media := ⟨[{ sampleRow with mediaType := .audio }], List.nodup_singleton _⟩
  references := by
    intro r hr
    refine ⟨sampleAudio, List.mem_singleton.mpr rfl, ?_⟩
    rw [List.mem_singleton.mp hr]
    rfl

/-- A cycle of the transcriber while the signed URL is stale, by the limit of the bridge and whether
the record of the bridge gets into the database. -/
def sampleCycle (maxDownloadAttempts : Int) (record : WriteOutcome) : Cycle where
  handler := newHandler "/data" none maxDownloadAttempts
  env := {
    request := {
      sampleRequestEnv with
      download := { staleUrl with stat := some (Bridge.Media.notExist "stat" "/data/media/15@lid") }
      record := record }
    exception := none
    render := fun
      | .error _ message code => "\x7b'error': '" ++ message ++ "', 'code': '" ++ code ++ "'\x7d"
      | .ok _ => ""
    applied := true }
  disk := sampleDisk

/-- A cycle of the transcriber while the URL works. -/
def sampleSuccess : Cycle where
  handler := newHandler "/data" none 3
  env := {
    request := {
      sampleRequestEnv with
      download := {
        staleUrl with
        stat := some (Bridge.Media.notExist "stat" "/data/media/15@lid")
        fetch := fun _ => .ok [1, 2, 3, 4] } }
    exception := none
    render := (sampleCycle 3 .refused).env.render
    applied := true }
  disk := sampleDisk

/-- The row of the voice note. -/
def sampleKey : String × String := ("M1", "15@lid")

theorem sampleVoice_budget : Budget sampleKey (sampleVoice, 0) :=
  ⟨Int.le_refl 0, false, rfl, nofun⟩

/-- The voice note still has its message, and no transcription. -/
def Stale (t : MediaTables) : Prop :=
  t.messages.lookup sampleKey = some sampleAudio ∧
    ∃ m, t.media.lookup sampleKey = some m ∧ m.mediaType = .audio ∧ m.transcribed = false

theorem Stale.update {t : MediaTables} {f : MediaRow → MediaRow} {hf : ∀ r, (f r).key = r.key} (h : Stale t)
    (hsame : ∀ r, (f r).mediaType = r.mediaType ∧ (f r).transcribed = r.transcribed) :
    Stale (t.update sampleKey f hf) := by
  obtain ⟨hmessage, m, hlookup, haudio, hopen⟩ := h
  obtain ⟨htype, htranscribed⟩ := hsame m
  refine ⟨hmessage, f m, ?_, htype.trans haudio, htranscribed.trans hopen⟩
  rw [MediaTables.lookup_update, if_pos rfl, hlookup]
  rfl

/-- A cycle takes the voice note up until it is given up. -/
theorem Stale.taken {t : MediaTables} {n : Int} (h : Stale t) (hcounters : t.counters sampleKey = some (n, false)) :
    ∃ m, Cycle.row sampleKey t = some m ∧ m.downloadAttempts = n := by
  obtain ⟨-, m, hlookup, haudio, htranscribed⟩ := h
  unfold MediaTables.counters at hcounters
  rw [hlookup] at hcounters
  obtain ⟨hattempts, hopen⟩ := Prod.mk.inj (Option.some.inj hcounters)
  refine ⟨m, ?_, hattempts⟩
  unfold Cycle.row
  rw [hlookup]
  simp [Option.filter, Untranscribed, haudio, htranscribed, hopen]

/-- Its file is on no disk of the sample, so the bridge downloads it. -/
theorem Stale.served {t : MediaTables} (h : Stale t) (handler : Handler) (env : RequestEnv)
    (hmessages : env.getMessageFails = false) (hmedia : env.getMediaFails = false) (hstat : env.stat = none) :
    downloadMedia handler env (some sampleDownload) ⟨t, sampleDisk⟩ =
      fetchMedia handler env sampleDownload sampleAudio.toMessageRow (handler.outDir sampleDownload)
        ⟨t, sampleDisk⟩ := by
  obtain ⟨hmessage, m, hlookup, -⟩ := h
  have hserves : Serves env sampleDownload ⟨t, sampleDisk⟩ sampleAudio :=
    ⟨by decide, by decide, hmessages, hmessage, by decide⟩
  have hmiss : serveCachedMedia env sampleDownload sampleAudio.toMessageRow
      (handler.outDir sampleDownload) ⟨t, sampleDisk⟩ = (⟨t, sampleDisk⟩, .miss) := by
    have hlookup' : t.media.lookup sampleDownload.key = some m := hlookup
    unfold serveCachedMedia
    rw [if_neg (by simp [hmedia])]
    dsimp only
    rw [hlookup']
    dsimp only
    split
    · rfl
    · rw [hstat]
      rfl
  rw [downloadMedia_of_serves hserves, serveMedia, hmiss]

/-- A cycle for the stale voice note fails to download it. -/
theorem Stale.fails {t : MediaTables} (h : Stale t) (maxDownloadAttempts : Int) (record : WriteOutcome) :
    FailsRetryably (sampleCycle maxDownloadAttempts record).handler
      (sampleCycle maxDownloadAttempts record).env.request sampleDownload ⟨t, sampleDisk⟩ := by
  have hserved := h.served (sampleCycle maxDownloadAttempts record).handler
    (sampleCycle maxDownloadAttempts record).env.request rfl rfl rfl
  generalize (sampleCycle maxDownloadAttempts record).handler = handler at hserved ⊢
  have hdownload : ∃ disk, Bridge.Media.download (sampleCycle maxDownloadAttempts record).env.request.download
      sampleAudio.toMessageRow (handler.outDir sampleDownload) sampleDisk = (disk, .error
        (Bridge.Media.downloadFailed ⟨"download failed with status code 403", none, false, false⟩)) := by
    unfold Bridge.Media.download
    rw [if_neg (by decide)]
    exact ⟨_, rfl⟩
  obtain ⟨disk, hdownload⟩ := hdownload
  exact ⟨sampleAudio.toMessageRow, ⟨t, sampleDisk⟩, disk, _, hserved, rfl, hdownload, rfl, by decide +kernel⟩

/-- While the URL works, the download works and is recorded. -/
theorem Stale.works {t : MediaTables} (h : Stale t) : ∃ disk response, response.filePath ≠ "" ∧
    downloadMedia sampleSuccess.handler sampleSuccess.env.request (some sampleDownload) ⟨t, sampleDisk⟩ =
      (⟨markMediaDownloaded .committed sampleKey response.filePath t, disk⟩, .ok response) := by
  have hserved := h.served sampleSuccess.handler sampleSuccess.env.request rfl rfl rfl
  obtain ⟨disk, hdownload⟩ : ∃ disk, Bridge.Media.download sampleSuccess.env.request.download
      sampleAudio.toMessageRow "/data" sampleDisk = (disk, .ok ⟨"/data/media/15@lid/image_20240101_100000.jpg",
        "audio", "image_20240101_100000.jpg", 4⟩) := ⟨_, Prod.ext rfl (by decide +kernel)⟩
  have hdir : sampleSuccess.handler.outDir sampleDownload = "/data" := rfl
  refine ⟨disk, ⟨"/data/media/15@lid/image_20240101_100000.jpg", "audio", 4⟩, by decide, ?_⟩
  rw [hserved, hdir, fetchMedia, hdownload]
  rfl

theorem Stale.row {t : MediaTables} {m : MediaRow} (h : Stale t) (hrow : Cycle.row sampleKey t = some m) :
    redownloadRequest m = sampleDownload ∧ isFile sampleDisk m = false := by
  obtain ⟨-, m', hlookup', -⟩ := h
  have hlookup := (Option.filter_eq_some_iff.mp hrow).1
  obtain rfl : m' = m := by
    rw [hlookup'] at hlookup
    exact Option.some.inj hlookup
  have hkey : m'.key = sampleKey := Table.lookup_key hlookup
  have hid : m'.messageId = "M1" := congrArg Prod.fst hkey
  have hchat : m'.chatJid = "15@lid" := congrArg Prod.snd hkey
  refine ⟨?_, rfl⟩
  unfold redownloadRequest
  rw [hid, hchat]
  rfl

theorem Stale.admissible {t : MediaTables} (h : Stale t) (maxDownloadAttempts : Int) (record : WriteOutcome)
    (n : Int) : (sampleCycle maxDownloadAttempts record).Admissible sampleKey (t, n) := by
  have hpending : permanent ("HTTP 503: " ++ (sampleCycle 3 .refused).env.render retryPending) = false := by
    decide +kernel
  refine ⟨rfl, hpending, fun m hrow _ => Or.inl ?_⟩
  rw [(h.row hrow).1]
  exact h.fails maxDownloadAttempts record

/-- The voice note stays stale. -/
theorem Stale.run {t : MediaTables} (h : Stale t) (maxDownloadAttempts : Int) (record : WriteOutcome) :
    Stale ((sampleCycle maxDownloadAttempts record).run sampleKey t) := by
  unfold Cycle.run
  split
  · next m hrow =>
    obtain ⟨hreq, hmissing⟩ := h.row hrow
    obtain ⟨errMsg, htables, hanswer⟩ := (h.fails maxDownloadAttempts record).outcome
    have hmarked : Stale (markMediaDownloadFailed record sampleKey errMsg false
        (sampleCycle maxDownloadAttempts record).handler.maxDownloadAttempts t).1 := by
      cases hrecords : t.Records record sampleKey
          (sampleCycle maxDownloadAttempts record).handler.maxDownloadAttempts with
      | false =>
        rw [Bridge.Store.markMediaDownloadFailed_of_not_records errMsg false hrecords]
        exact h
      | true =>
        obtain ⟨r, -, hafter, -⟩ := Bridge.Store.markMediaDownloadFailed_of_records errMsg false hrecords
        rw [hafter]
        exact h.update fun _ => ⟨rfl, rfl⟩
    obtain ⟨status, message, code, herror⟩ : ∃ status message code,
        (downloadMedia (sampleCycle maxDownloadAttempts record).handler
          (sampleCycle maxDownloadAttempts record).env.request (some sampleDownload) ⟨t, sampleDisk⟩).2 =
            .error status message code := by
      rw [hanswer]
      split
      · exact ⟨_, _, _, rfl⟩
      · exact ⟨_, _, _, rfl⟩
    rw [← hreq] at herror htables
    show Stale (obtainAudio _ _ m ⟨t, sampleDisk⟩).1.tables
    have hkey : m.key = sampleKey := Table.lookup_key (Option.filter_eq_some_iff.mp hrow).1
    rw [obtainAudio_of_error hmissing (Prod.ext rfl herror), htables, hkey, hreq]
    unfold recordRedownloadFailure
    split
    · exact hmarked.update fun _ => ⟨rfl, rfl⟩
    · exact hmarked
  · exact h

theorem sampleVoice_stale : Stale sampleVoice := ⟨rfl, _, rfl, rfl, rfl⟩

/-- A cycle that works, for the row of the voice note. -/
theorem Stale.works_row {t : MediaTables} {m : MediaRow} (h : Stale t) (hrow : Cycle.row sampleKey t = some m) :
    ∃ disk response, response.filePath ≠ "" ∧
      downloadMedia sampleSuccess.handler sampleSuccess.env.request (some (redownloadRequest m))
          ⟨t, sampleSuccess.disk⟩ =
        (⟨markMediaDownloaded .committed sampleKey response.filePath t, disk⟩, .ok response) := by
  rw [(h.row hrow).1]
  exact h.works

theorem Stale.admissible_success {t : MediaTables} (h : Stale t) (n : Int) :
    sampleSuccess.Admissible sampleKey (t, n) := by
  have hpending : permanent ("HTTP 503: " ++ sampleSuccess.env.render retryPending) = false := by
    decide +kernel
  refine ⟨rfl, hpending, fun m hrow _ => Or.inr ?_⟩
  obtain ⟨disk, response, hpath, hworks⟩ := h.works_row hrow
  exact ⟨response, hpath, congrArg Prod.snd hworks⟩

/-- The voice note is not transcribed by that. -/
theorem Stale.run_success {t : MediaTables} (h : Stale t) : Stale (sampleSuccess.run sampleKey t) := by
  unfold Cycle.run
  split
  · next m hrow =>
    obtain ⟨disk, response, hpath, hworks⟩ := h.works_row hrow
    have hkey : m.key = sampleKey := Table.lookup_key (Option.filter_eq_some_iff.mp hrow).1
    have hmarked : Stale (markMediaDownloaded .committed sampleKey response.filePath t) :=
      h.update fun _ => ⟨rfl, rfl⟩
    rw [obtainAudio_of_ok (h.row hrow).2 rfl hpath hworks, hkey]
    exact hmarked.update fun _ => ⟨rfl, rfl⟩
  · exact h

/-- A cycle of the sample: it fails, or it works. -/
def Sampled (c : Cycle) : Prop :=
  (∃ maxDownloadAttempts record, c = sampleCycle maxDownloadAttempts record) ∨ c = sampleSuccess

theorem Stale.sampled {t : MediaTables} {c : Cycle} (h : Stale t) (hc : Sampled c) (n : Int) :
    c.Admissible sampleKey (t, n) ∧ Stale (c.run sampleKey t) := by
  rcases hc with ⟨maxDownloadAttempts, record, rfl⟩ | rfl
  · exact ⟨h.admissible maxDownloadAttempts record n, h.run maxDownloadAttempts record⟩
  · exact ⟨h.admissible_success n, h.run_success⟩

/-- Cycles for the stale voice note are a run that the transcriber can meet. -/
theorem sampleCycles_admissible {cycles : List Cycle} (hcycles : ∀ c ∈ cycles, Sampled c)
    {s : MediaTables × Int} (h : Stale s.1) :
    Along (Cycle.step sampleKey) (Cycle.Admissible sampleKey) s cycles := by
  induction cycles generalizing s with
  | nil => trivial
  | cons c cycles ih =>
    obtain ⟨hadmissible, hrun⟩ := h.sampled (hcycles c List.mem_cons_self) s.2
    exact ⟨hadmissible, ih (fun c hc => hcycles c (List.mem_cons_of_mem _ hc)) hrun⟩

/-- Where the bridge cannot record the failure, it is recorded once. -/
theorem Stale.single {t : MediaTables} (h : Stale t) (n : Int)
    (hinteger : ∀ m, t.media.lookup sampleKey = some m → isInteger (m.downloadAttempts + 1) = true) :
    (sampleCycle 3 .refused).Single sampleKey (t, n) := by
  intro m hrow hmissing
  obtain ⟨hreq, -⟩ := h.row hrow
  refine ⟨fun _ => ⟨?_, Or.inl rfl⟩, fun hnot => absurd ?_ hnot⟩
  · show false ≠ (true && isInteger (m.downloadAttempts + 1))
    rw [hinteger m (row_open hrow).1]
    nofun
  · rw [hreq]
    exact h.fails 3 .refused

/-- A download that works is no failed one, and its record is not lost. -/
theorem Stale.single_success {t : MediaTables} (h : Stale t) (n : Int) :
    sampleSuccess.Single sampleKey (t, n) := by
  intro m hrow hmissing
  refine ⟨fun hfails => ?_, fun _ => ⟨rfl, rfl⟩⟩
  obtain ⟨disk, response, -, hworks⟩ := h.works_row hrow
  obtain ⟨errMsg, -, hanswer⟩ := hfails.outcome
  rw [hworks] at hanswer
  split at hanswer <;> cases hanswer

/-- Few such cycles, from a count that is the counter of the row. -/
theorem sampleCycles_single {cycles : List Cycle}
    (hcycles : ∀ c ∈ cycles, c = sampleCycle 3 .refused ∨ c = sampleSuccess) {s : MediaTables × Int}
    (h : Stale s.1) (hb : Budget sampleKey s) (hfew : s.2 + cycles.length ≤ 100) :
    Along (Cycle.step sampleKey) (Cycle.Single sampleKey) s cycles := by
  induction cycles generalizing s with
  | nil => trivial
  | cons c cycles ih =>
    obtain ⟨t, n⟩ := s
    rw [List.length_cons] at hfew
    have hnonneg : 0 ≤ n := hb.1
    have hc := hcycles c List.mem_cons_self
    have hsampled : Sampled c := hc.imp_left fun hfail => ⟨3, .refused, hfail⟩
    have hsingle : c.Single sampleKey (t, n) := by
      rcases hc with rfl | rfl
      · refine h.single n fun m hm => ?_
        rw [hb.attempts hm, isInteger, Bool.and_eq_true, decide_eq_true_eq, decide_eq_true_eq]
        omega
      · exact h.single_success n
    obtain ⟨hadmissible, hrun⟩ := h.sampled hsampled n
    have hsince : c.since sampleKey n t ≤ n + 1 := by
      unfold Cycle.since
      split <;> omega
    refine ⟨hsingle, ih (fun c hc => hcycles c (List.mem_cons_of_mem _ hc)) hrun
      (hb.step hadmissible hsingle).1 ?_⟩
    show c.since sampleKey n t + cycles.length ≤ 100
    omega

/-- The download fails twice, works, and fails again. -/
def sampleCycles : List Cycle :=
  [sampleCycle 3 .refused, sampleCycle 3 .refused, sampleSuccess, sampleCycle 3 .refused]

/-- The bridge cannot record a failure of the voice note, and the count starts again after the
download that works. -/
theorem budget_of_single_of_sampleVoice :
    (Along (Cycle.step sampleKey) (Cycle.CountsOnce sampleKey) (sampleVoice, 0) sampleCycles ∧
      Budget sampleKey (sampleCycles.foldl (Cycle.step sampleKey) (sampleVoice, 0))) ∧
      (sampleCycles.foldl (Cycle.step sampleKey) (sampleVoice, 0)).1.counters sampleKey =
        some (1, false) := by
  have hcycles : ∀ c ∈ sampleCycles, c = sampleCycle 3 .refused ∨ c = sampleSuccess := by
    simp [sampleCycles]
  have hadmissible := sampleCycles_admissible (s := (sampleVoice, 0))
    (fun c hc => (hcycles c hc).imp_left fun hfail => ⟨3, .refused, hfail⟩) sampleVoice_stale
  have hsingle := sampleCycles_single hcycles sampleVoice_stale sampleVoice_budget (by decide)
  exact ⟨budget_of_single sampleVoice_budget hadmissible hsingle, by decide +kernel⟩

/-- A cycle whose failure both services record. -/
theorem Stale.twice {t : MediaTables} {n : Int} (h : Stale t)
    (hcounters : t.counters sampleKey = some (2 * n, false)) (hn : 0 ≤ n) (hlimit : n < 4) :
    (sampleCycle 100 .committed).answer sampleKey t = some retryPending ∧
      ((sampleCycle 100 .committed).run sampleKey t).counters sampleKey =
        some (2 * (n + 1), decide (4 ≤ n + 1)) := by
  obtain ⟨m, hrow, hattempts⟩ := h.taken hcounters
  obtain ⟨hlookup, hopen, -⟩ := row_open hrow
  obtain ⟨hreq, hmissing⟩ := h.row hrow
  have hinteger : ∀ i : Int, 0 ≤ i → i ≤ 100 → isInteger i = true := by
    intro i hi hi'
    unfold isInteger
    simp only [Bool.and_eq_true, decide_eq_true_eq]
    omega
  have hrecords : t.Records .committed sampleKey 100 = true := by
    unfold MediaTables.Records MediaTables.failing
    rw [hlookup]
    simp [WriteOutcome.applied, Option.filter, hinteger (m.downloadAttempts + 1) (by omega) (by omega),
      hinteger 100 (by decide) (by decide)]
  have hfails := h.fails 100 .committed
  rw [← hreq] at hfails
  obtain ⟨hanswer, htwice⟩ := run_twice hrow hmissing (h.admissible 100 .committed 0) hrecords
    (hinteger _ (by omega) (by omega)) (show m.downloadAttempts + 1 < 100 by omega) hfails
  refine ⟨hanswer, htwice.trans ?_⟩
  rw [hattempts, show 2 * n + 1 + 1 = 2 * (n + 1) by omega]
  have hhalf : maxDownloadAttempts ≤ 2 * (n + 1) ↔ 4 ≤ n + 1 := by
    unfold maxDownloadAttempts
    omega
  rw [decide_eq_decide.mpr hhalf]

/-- The voice note after so many of these cycles. -/
def Halved (n : Int) (s : MediaTables × Int) : Prop :=
  Stale s.1 ∧ s.1.counters sampleKey = some (2 * n, decide (4 ≤ n)) ∧ s.2 = n

theorem Halved.step {n : Int} {s : MediaTables × Int} (h : Halved n s) (hn : 0 ≤ n) (hlimit : n < 4) :
    (sampleCycle 100 .committed).answer sampleKey s.1 = some retryPending ∧
      Halved (n + 1) (Cycle.step sampleKey s (sampleCycle 100 .committed)) := by
  obtain ⟨hstale, hcounters, hcount⟩ := h
  rw [decide_eq_false (by omega)] at hcounters
  obtain ⟨hanswer, hafter⟩ := hstale.twice hcounters hn hlimit
  refine ⟨hanswer, hstale.run 100 .committed, hafter, ?_⟩
  show (sampleCycle 100 .committed).since sampleKey s.2 s.1 = n + 1
  unfold Cycle.since
  rw [hanswer, hcount]
  rfl

/-- No cycle of a run is answered with the permanent code. -/
def NeverTerminal (k : String × String) : MediaTables × Int → List Cycle → Prop :=
  Along (Cycle.step k) fun c s => c.answer k s.1 ≠ some permanentlyUnavailable

theorem Halved.run {n : Int} {s : MediaTables × Int} (h : Halved n s) (hn : 0 ≤ n) (j : Nat) (hj : n + j ≤ 4) :
    NeverTerminal sampleKey s (List.replicate j (sampleCycle 100 .committed)) ∧
      Halved (n + j) ((List.replicate j (sampleCycle 100 .committed)).foldl (Cycle.step sampleKey) s) := by
  induction j generalizing n s with
  | zero => exact ⟨trivial, by simpa using h⟩
  | succ j ih =>
    obtain ⟨hanswer, hstep⟩ := h.step hn (by omega)
    obtain ⟨hrest, hlast⟩ := ih hstep (by omega) (by omega)
    have hpending : (sampleCycle 100 .committed).answer sampleKey s.1 ≠ some permanentlyUnavailable := by
      rw [hanswer]
      decide
    rw [show n + (j + 1 : Nat) = n + 1 + j by omega, List.replicate_succ, List.foldl_cons]
    exact ⟨⟨hpending, hrest⟩, hlast⟩

/-- The bridge and the transcriber both count: a download that fails is counted twice, and after four
the voice note is given up. -/
theorem budget_halved :
    (¬ ∀ k s cycles, Budget k s → Along (Cycle.step k) (Cycle.Admissible k) s cycles →
      Along (Cycle.step k) (Cycle.CountsOnce k) s cycles) ∧
    ¬ ∀ k s cycles, Budget k s → Along (Cycle.step k) (Cycle.Admissible k) s cycles → NeverTerminal k s cycles →
      ∀ attempts, (cycles.foldl (Cycle.step k) s).1.counters k = some (attempts, true) →
        maxDownloadAttempts ≤ (cycles.foldl (Cycle.step k) s).2 := by
  have h0 : Halved 0 (sampleVoice, 0) := ⟨sampleVoice_stale, rfl, rfl⟩
  have hrun : Along (Cycle.step sampleKey) (Cycle.Admissible sampleKey) (sampleVoice, 0)
      (List.replicate 4 (sampleCycle 100 .committed)) :=
    sampleCycles_admissible (fun c hc => .inl ⟨100, .committed, List.eq_of_mem_replicate hc⟩) sampleVoice_stale
  constructor
  · intro hclaim
    have hcounters : sampleVoice.counters sampleKey = some (2 * 0, false) := rfl
    obtain ⟨hanswer, htwice⟩ := sampleVoice_stale.twice hcounters (by decide) (by decide)
    obtain ⟨hcounts, -⟩ := hclaim _ _ _ sampleVoice_budget hrun
    obtain ⟨attempts, _, _, hbefore, hafter⟩ := hcounts _ _ _ hanswer
    rw [hcounters] at hbefore
    rw [htwice] at hafter
    have hattempts := (Prod.mk.inj (Option.some.inj hbefore)).1
    have htwice := (Prod.mk.inj (Option.some.inj hafter)).1
    omega
  · intro hclaim
    obtain ⟨hnever, hlast⟩ := h0.run (by decide) 4 (by decide)
    have hlimit := hclaim _ _ _ sampleVoice_budget hrun hnever 8
    obtain ⟨-, hcounters, hcount⟩ := hlast
    rw [hcounters, hcount] at hlimit
    exact absurd (hlimit rfl) (by decide)

end WhatsAppMcp.Downloads
