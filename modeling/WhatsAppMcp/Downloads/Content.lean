import WhatsAppMcp.Bridge.Media.Effects
import WhatsAppMcp.Downloads.Attempts

/-!
# The content of the files that are served

A download takes any file at its path for the media, and a recorded path is served as
long as it names a file.  So a run serves what belongs to a message only where the paths
of the messages are kept apart and no part of a file stays at one.

* `Sound`: every recorded path that names a file names the media of its message.
* `Clear` is the condition on one attempt, in the state before it.
* `Effect` is what an attempt does to the files and to the recorded paths.  It keeps
  `Sound` where the attempt is clear.
* `attempts_truthful` is the result for a run.
-/

namespace WhatsAppMcp.Downloads

open Bridge.Store (MessageRow MediaRow MediaTables WriteOutcome markMediaDownloaded)
open Bridge.Media (Disk DownloadEnv Free GoError resolveLocalPath)
open Bridge.Api
open Bridge.MediaRetry (Worker mediaRowToMessage retryOne)
open Transcriber (RedownloadEnv obtainAudio redownloadRequest isFile)
open Trace (Along)

/-! ## Recorded paths -/

/-- The path that is recorded for a message. -/
def recorded (t : MediaTables) (k : String × String) : Option String :=
  (t.media.lookup k).bind (·.localPath)

section Recorded

variable {t : MediaTables} {key k : String × String} {p q : String}

theorem recorded_update {f : MediaRow → MediaRow} {hf : ∀ r, (f r).key = r.key}
    (h : recorded (t.update key f hf) k = some q) :
    recorded t k = some q ∨ k = key ∧ ∃ r, t.media.lookup key = some r ∧ (f r).localPath = some q := by
  unfold recorded at h
  rw [MediaTables.lookup_update] at h
  split at h
  · next hk =>
    subst hk
    obtain ⟨r', hr', hq⟩ := Option.bind_eq_some_iff.mp h
    obtain ⟨r, hr, rfl⟩ := Option.map_eq_some_iff.mp hr'
    exact .inr ⟨rfl, r, hr, hq⟩
  · exact .inl h

/-- An update that keeps the path of a row records nothing. -/
theorem recorded_of_update {f : MediaRow → MediaRow} {hf : ∀ r, (f r).key = r.key}
    (h : recorded (t.update key f hf) k = some q) (hpath : ∀ r, (f r).localPath = r.localPath) :
    recorded t k = some q := by
  rcases recorded_update h with hold | ⟨rfl, r, hr, hq⟩
  · exact hold
  · unfold recorded
    rw [hr]
    exact (hpath r).symm.trans hq

theorem recorded_markMediaDownloaded {outcome : WriteOutcome}
    (h : recorded (markMediaDownloaded outcome key p t) k = some q) :
    recorded t k = some q ∨ k = key ∧ q = p := by
  unfold markMediaDownloaded at h
  split at h
  · rcases recorded_update h with hold | ⟨rfl, r, -, hq⟩
    · exact .inl hold
    · exact .inr ⟨rfl, (Option.some.inj hq).symm⟩
  · exact .inl h

theorem recorded_markMediaDownloadFailed {outcome : WriteOutcome} {errMsg : String} {structural : Bool}
    {maxAttempts : Int}
    (h : recorded (Bridge.Store.markMediaDownloadFailed outcome key errMsg structural maxAttempts t).1 k =
      some q) : recorded t k = some q := by
  cases hrecords : t.Records outcome key maxAttempts with
  | false => rwa [Bridge.Store.markMediaDownloadFailed_of_not_records _ _ hrecords] at h
  | true =>
    obtain ⟨r, -, hafter, -⟩ := Bridge.Store.markMediaDownloadFailed_of_records errMsg structural hrecords
    rw [hafter] at h
    exact recorded_of_update h fun _ => rfl

theorem recorded_recordRedownloadFailure {applied : Bool} {errorText : String}
    (h : recorded (Transcriber.recordRedownloadFailure applied key errorText t) k = some q) :
    recorded t k = some q := by
  unfold Transcriber.recordRedownloadFailure at h
  split at h
  · exact recorded_of_update h fun _ => rfl
  · exact h

theorem recorded_updateLocalPath {applied : Bool}
    (h : recorded (Transcriber.updateLocalPath applied key p t) k = some q) :
    recorded t k = some q ∨ k = key ∧ q = p := by
  unfold Transcriber.updateLocalPath at h
  split at h
  · rcases recorded_update h with hold | ⟨rfl, r, -, hq⟩
    · exact .inl hold
    · exact .inr ⟨rfl, (Option.some.inj hq).symm⟩
  · exact .inl h

/-- The path that a row heals with is the one that it has. -/
theorem recorded_heal {outcome : WriteOutcome} {row : MediaRow} (hrow : recorded t row.key = some p)
    (h : recorded (heal outcome row p t) k = some q) : recorded t k = some q := by
  unfold heal at h
  split at h
  · rcases recorded_markMediaDownloaded h with hold | ⟨rfl, rfl⟩
    · exact hold
    · exact hrow
  · exact h

end Recorded

/-! ## Clear attempts -/

section Clear

variable (own : String × String → List UInt8)

/-- Every recorded path that names a file names the media of its message. -/
def Sound (w : World) : Prop :=
  ∀ k p data, recorded w.tables k = some p → w.disk.get p = some (.file data) → data = own k

/-- The path of a message is its own: it is free for the media, no other message has it
recorded, and it does not name the recorded file by another name.  Where it is the
recorded path, the write leaves no part of a file there. -/
structure Clear (env : DownloadEnv) (key : String × String) (path : String) (w : World) : Prop where
  free : Free w.disk path (own key)
  others : ∀ k p, k ≠ key → recorded w.tables k = some p → w.disk.place p ≠ w.disk.place path
  single : ∀ p, recorded w.tables key = some p → p ≠ path → w.disk.place p ≠ w.disk.place path
  whole : recorded w.tables key = some path → env.WritesWhole

/-- What an attempt for a message does to the files and to the recorded paths. -/
structure Effect (key : String × String) (path : String) (w w' : World) : Prop where
  files : w.disk.SameBut w'.disk path
  content : recorded w.tables key = some path →
    ∀ data, w'.disk.get path = some (.file data) → data = own key
  records : ∀ k p, recorded w'.tables k = some p →
    recorded w.tables k = some p ∨ w'.disk.get p = some (.file (own k))

variable {own} {env : DownloadEnv} {key : String × String} {path : String} {w w' w₁ : World}

/-- A clear attempt keeps the recorded paths sound. -/
theorem Effect.sound (h : Effect own key path w w') (hclear : Clear own env key path w)
    (hsound : Sound own w) : Sound own w' := by
  intro k p data hp hget
  rcases h.records k p hp with hold | hnew
  · by_cases hplace : w.disk.place p = w.disk.place path
    · by_cases hk : k = key
      · subst hk
        by_cases hpath : p = path
        · subst hpath
          exact h.content hold data hget
        · exact absurd hplace (hclear.single p hold hpath)
      · exact absurd hplace (hclear.others k p hk hold)
    · exact hsound k p data hold ((h.files.files p data hplace).mp hget)
  · rw [hnew] at hget
    exact (Node.file.inj (Option.some.inj hget)).symm

/-- An attempt whose first part keeps the tables and leaves the path free. -/
theorem Clear.of_miss (hclear : Clear own env key path w) (htables : w₁.tables = w.tables)
    (hfiles : w.disk.SameBut w₁.disk path) (hfree : Free w₁.disk path (own key)) :
    Clear own env key path w₁ := by
  refine ⟨hfree, ?_, ?_, ?_⟩
  · rw [htables, hfiles.place]
    exact hclear.others
  · rw [htables, hfiles.place]
    exact hclear.single
  · rw [htables]
    exact hclear.whole

theorem Effect.of_miss (h : Effect own key path w₁ w') (htables : w₁.tables = w.tables)
    (hfiles : w.disk.SameBut w₁.disk path) : Effect own key path w w' :=
  ⟨hfiles.trans h.files, htables ▸ h.content, htables ▸ h.records⟩

/-! ## The cached file -/

section Cache

variable {renv : RequestEnv} {req : DownloadRequest} {msg : MessageRow} {row : MediaRow} {outDir : String}
variable {localPath : String} {size : Nat} {data : List UInt8} {response : DownloadResponse}
variable {dest : Bridge.Media.LocalDestError}

theorem serveFile_hit (hclear : Clear own env row.key path w) (hsound : Sound own w)
    (hrecorded : recorded w.tables row.key = some localPath)
    (hget : w.disk.get localPath = some (.file data))
    (h : serveFile renv msg row localPath path size w = (w', .hit response)) :
    Effect own row.key path w w' ∧ w'.disk.get response.filePath = some (.file (own row.key)) := by
  have hown := hsound row.key localPath data hrecorded hget
  unfold serveFile at h
  split at h
  · next hne =>
    split at h
    · next disk n hcopy =>
      cases h
      have hcopied := Bridge.Media.copyFile_ok hcopy hget (hclear.single localPath hrecorded hne.symm)
      refine ⟨⟨Bridge.Media.copyFile_sameBut hcopy, fun hpath => ?_, fun k p hp => ?_⟩, hown ▸ hcopied⟩
      · exact absurd (Option.some.inj (hpath.symm.trans hrecorded)) hne
      · exact .inl (recorded_heal hrecorded hp)
    · split at h <;> cases h
  · cases h
    refine ⟨⟨.refl _ _, fun hpath data' hdata' => ?_, fun k p hp => ?_⟩, hown ▸ hget⟩
    · exact hsound row.key path data' hpath hdata'
    · exact .inl (recorded_heal hrecorded hp)

theorem serveFile_unwritable (hrecorded : recorded w.tables row.key = some localPath)
    (h : serveFile renv msg row localPath path size w = (w', .unwritable dest)) :
    Effect own row.key path w w' := by
  unfold serveFile at h
  split at h
  · next hne =>
    split at h
    · cases h
    · next disk e hcopy =>
      split at h
      · cases h
        refine ⟨Bridge.Media.copyFile_sameBut hcopy, fun hpath => ?_, fun k p hp => .inl hp⟩
        exact absurd (Option.some.inj (hpath.symm.trans hrecorded)) hne
      · cases h
  · cases h

theorem serveFile_miss (hfree : Free w.disk path data)
    (h : serveFile renv msg row localPath path size w = (w', .miss)) :
    w'.tables = w.tables ∧ w.disk.SameBut w'.disk path ∧ Free w'.disk path data := by
  unfold serveFile at h
  split at h
  · split at h
    · cases h
    · next disk e hcopy =>
      split at h
      · cases h
      · next hsource =>
        cases h
        exact ⟨rfl, Bridge.Media.copyFile_sameBut hcopy, Bridge.Media.copyFile_miss hcopy hsource hfree⟩
  · cases h

/-- The cache serves nothing and does nothing, or it works with the recorded file. -/
theorem serveCachedMedia_cases (renv : RequestEnv) (req : DownloadRequest) (msg : MessageRow) (outDir : String)
    (w : World) :
    serveCachedMedia renv req msg outDir w = (w, .miss) ∨
    ∃ row localPath data, row.key = req.key ∧ recorded w.tables req.key = some localPath ∧
      w.disk.get localPath = some (.file data) ∧
      serveCachedMedia renv req msg outDir w =
        serveFile renv msg row localPath (resolveLocalPath outDir msg.chatJid msg.filename) data.length w := by
  unfold serveCachedMedia
  split
  · exact .inl rfl
  · next row hrow =>
    dsimp only
    split
    · exact .inl rfl
    · next hpath =>
      split
      · next data hstat =>
        have hlookup : w.tables.media.lookup req.key = some row := by
          split at hrow
          · cases hrow
          · exact hrow
        refine .inr ⟨row, row.localPath.getD "", data, Table.lookup_key hlookup, ?_, ?_, rfl⟩
        · unfold recorded
          rw [hlookup, Option.bind_some]
          cases hlocal : row.localPath with
          | none => exact absurd (by rw [hlocal]; rfl) hpath
          | some localPath => rfl
        · unfold Bridge.Media.lookup at hstat
          split at hstat
          · cases hstat
          · next hget => exact hget.trans (congrArg some (Except.ok.inj hstat))
          · cases hstat
      · exact .inl rfl
      · exact .inl rfl

end Cache

/-! ## One attempt -/

section Attempt

variable {h : Handler} {renv : RequestEnv} {req : DownloadRequest} {msg : MessageRow} {outDir : String}
variable {answer : Answer}

theorem recordFailure_effect {outcome : WriteOutcome} {e : GoError}
    (hw : recordFailure h req outcome e w = (w', answer)) :
    w'.disk = w.disk ∧ (∀ k p, recorded w'.tables k = some p → recorded w.tables k = some p) ∧
      ∀ response, answer ≠ .ok response := by
  unfold recordFailure at hw
  split at hw
  · cases hw
    exact ⟨rfl, fun _ _ hp => hp, nofun⟩
  · cases hw
    refine ⟨rfl, fun _ _ hp => recorded_markMediaDownloadFailed hp, fun response => ?_⟩
    split <;> nofun

theorem effect_of_error {e : GoError} {t : MediaTables} {disk : Disk}
    (hclear : Clear own env key (resolveLocalPath outDir msg.chatJid msg.filename) w)
    (hdownload : Bridge.Media.download env msg outDir w.disk = (disk, .error e))
    (hrecords : ∀ k p, recorded t k = some p → recorded w.tables k = some p) :
    Effect own key (resolveLocalPath outDir msg.chatJid msg.filename) w ⟨t, disk⟩ := by
  refine ⟨Bridge.Media.download_sameBut hdownload, fun hpath data hget => ?_,
    fun k p hp => .inl (hrecords k p hp)⟩
  rw [show disk.get _ = _ from Bridge.Media.download_error hdownload hclear.free (hclear.whole hpath)] at hget
  rcases hclear.free.holds with hnone | hwhole
  · rw [hnone] at hget
    cases hget
  · rw [hwhole] at hget
    exact (Node.file.inj (Option.some.inj hget)).symm

theorem effect_of_ok {result : Bridge.Media.DownloadResult} {t : MediaTables} {disk : Disk}
    (hclear : Clear own env key (resolveLocalPath outDir msg.chatJid msg.filename) w)
    (hdelivers : env.Delivers (own key))
    (hdownload : Bridge.Media.download env msg outDir w.disk = (disk, .ok result))
    (hrecords : ∀ k p, recorded t k = some p →
      recorded w.tables k = some p ∨ k = key ∧ p = result.path) :
    Effect own key (resolveLocalPath outDir msg.chatJid msg.filename) w ⟨t, disk⟩ ∧
      disk.get result.path = some (.file (own key)) := by
  obtain ⟨hpath, hget⟩ := Bridge.Media.download_ok hdownload hclear.free hdelivers
  refine ⟨⟨Bridge.Media.download_sameBut hdownload, fun _ data hdata => ?_, fun k p hp => ?_⟩, hget⟩
  · rw [hpath] at hget
    exact (Node.file.inj (Option.some.inj (hget.symm.trans hdata))).symm
  · rcases hrecords k p hp with hold | ⟨rfl, rfl⟩
    · exact .inl hold
    · exact .inr hget

/-- A download that is not served from the cache. -/
theorem fetchMedia_effect
    (hclear : Clear own renv.download req.key (resolveLocalPath outDir msg.chatJid msg.filename) w)
    (hdelivers : renv.download.Delivers (own req.key))
    (hw : fetchMedia h renv req msg outDir w = (w', answer)) :
    Effect own req.key (resolveLocalPath outDir msg.chatJid msg.filename) w w' ∧
      ∀ response, answer = .ok response → w'.disk.get response.filePath = some (.file (own req.key)) := by
  unfold fetchMedia at hw
  split at hw
  · next disk e hdownload =>
    obtain ⟨hdisk, hrecords, hanswer⟩ := recordFailure_effect hw
    refine ⟨?_, fun response hok => absurd hok (hanswer response)⟩
    have heffect := effect_of_error (t := w'.tables) hclear hdownload hrecords
    rwa [show disk = w'.disk from hdisk.symm] at heffect
  · next disk result hdownload =>
    cases hw
    obtain ⟨heffect, hget⟩ := effect_of_ok hclear hdelivers hdownload fun k p => recorded_markMediaDownloaded
    refine ⟨heffect, fun response hok => ?_⟩
    rw [← Answer.ok.inj hok]
    exact hget

/-- A request for a message with media. -/
theorem serveMedia_effect
    (hclear : Clear own renv.download req.key (resolveLocalPath (h.outDir req) msg.chatJid msg.filename) w)
    (hsound : Sound own w) (hdelivers : renv.download.Delivers (own req.key))
    (hw : serveMedia h renv req msg w = (w', answer)) :
    Effect own req.key (resolveLocalPath (h.outDir req) msg.chatJid msg.filename) w w' ∧
      ∀ response, answer = .ok response → w'.disk.get response.filePath = some (.file (own req.key)) := by
  unfold serveMedia at hw
  rcases serveCachedMedia_cases renv req msg (h.outDir req) w with
    hmiss | ⟨row, localPath, data, hkey, hrecorded, hget, hfile⟩
  · rw [hmiss] at hw
    exact fetchMedia_effect hclear hdelivers hw
  · rw [hfile] at hw
    rw [← hkey] at hclear hrecorded
    split at hw
    · next w₁ dest hunwritable =>
      cases hw
      rw [← hkey]
      exact ⟨serveFile_unwritable hrecorded hunwritable, nofun⟩
    · next w₁ response hhit =>
      cases hw
      obtain ⟨heffect, hserved⟩ := serveFile_hit hclear hsound hrecorded hget hhit
      rw [← hkey]
      refine ⟨heffect, fun response' hok => ?_⟩
      rw [← Answer.ok.inj hok]
      exact hserved
    · next w₁ hmiss =>
      obtain ⟨htables, hfiles, hfree⟩ := serveFile_miss hclear.free hmiss
      rw [hkey] at hclear hfree
      obtain ⟨heffect, hserved⟩ := fetchMedia_effect (hclear.of_miss htables hfiles hfree) hdelivers hw
      exact ⟨heffect.of_miss htables hfiles, hserved⟩

end Attempt

/-! ## The three kinds of attempts -/

/-- What a run must not do: a path is recorded that does not name the media. -/
def RecordsOwn (own : String × String → List UInt8) (w w' : World) : Prop :=
  ∀ k p, recorded w'.tables k = some p →
    recorded w.tables k = some p ∨ w'.disk.get p = some (.file (own k))

/-- The path of a request is clear, where it names a message. -/
def ClearRequest (own : String × String → List UInt8) (h : Handler) (renv : RequestEnv)
    (req : DownloadRequest) (w : World) : Prop :=
  ∀ msg, w.tables.messages.lookup req.key = some msg →
    Clear own renv.download req.key (resolveLocalPath (h.outDir req) msg.chatJid msg.filename) w

theorem downloadMedia_truthful {h : Handler} {renv : RequestEnv} {req : DownloadRequest} {answer : Answer}
    (hclear : ClearRequest own h renv req w) (hsound : Sound own w)
    (hdelivers : renv.download.Delivers (own req.key))
    (hw : downloadMedia h renv (some req) w = (w', answer)) :
    Sound own w' ∧ RecordsOwn own w w' ∧
      ∀ response, answer = .ok response → w'.disk.get response.filePath = some (.file (own req.key)) := by
  rcases downloadMedia_cases h renv req w with ⟨status, message, code, -, hrefused⟩ | ⟨msg, hmsg, -, hserved⟩
  · rw [hrefused] at hw
    cases hw
    exact ⟨hsound, fun _ _ hp => .inl hp, nofun⟩
  · rw [hserved] at hw
    obtain ⟨heffect, hanswer⟩ := serveMedia_effect (hclear msg hmsg) hsound hdelivers hw
    exact ⟨heffect.sound (hclear msg hmsg) hsound, heffect.records, hanswer⟩

/-- The path at which the retry of a row works. -/
def retryPath (worker : Worker) (m : MediaRow) : String :=
  resolveLocalPath worker.dataDir (mediaRowToMessage m).chatJid (mediaRowToMessage m).filename

theorem retryOne_truthful {worker : Worker} {outcome : WriteOutcome} {m : MediaRow}
    (hclear : Clear own env m.key (retryPath worker m) w) (hsound : Sound own w)
    (hdelivers : env.Delivers (own m.key)) :
    Sound own ((Attempt.retry worker env outcome m).run w) ∧
      RecordsOwn own w ((Attempt.retry worker env outcome m).run w) := by
  suffices heffect : Effect own m.key (retryPath worker m) w ((Attempt.retry worker env outcome m).run w) from
    ⟨heffect.sound hclear hsound, heffect.records⟩
  unfold Attempt.run retryOne
  dsimp only
  split
  · next disk e hdownload =>
    split
    · exact effect_of_error hclear hdownload fun _ _ hp => hp
    · exact effect_of_error hclear hdownload fun _ _ hp => recorded_markMediaDownloadFailed hp
  · next disk result hdownload =>
    exact (effect_of_ok hclear hdelivers hdownload fun _ _ hp => recorded_markMediaDownloaded hp).1

/-- A change of the tables alone that records only paths of the media. -/
theorem Sound.of_records (hsound : Sound own w₁) {t : MediaTables}
    (hrecords : RecordsOwn own w₁ ⟨t, w₁.disk⟩) : Sound own ⟨t, w₁.disk⟩ := by
  intro k p data hp hget
  rcases hrecords k p hp with hold | hnew
  · exact hsound k p data hold hget
  · exact (Node.file.inj (Option.some.inj (hnew.symm.trans hget))).symm

theorem RecordsOwn.tables (hfirst : RecordsOwn own w w₁) {t : MediaTables}
    (hrecords : RecordsOwn own w₁ ⟨t, w₁.disk⟩) : RecordsOwn own w ⟨t, w₁.disk⟩ := by
  intro k p hp
  rcases hrecords k p hp with hold | hnew
  · exact hfirst k p hold
  · exact .inr hnew

/-- What the transcriber makes of the answer: it records the path that it was given, or no
path. -/
theorem obtainAudio_records {h : Handler} {renv : RedownloadEnv} {m : MediaRow} {answer : Answer}
    (hmissing : isFile w.disk m = false)
    (hw : downloadMedia h renv.request (some (redownloadRequest m)) w = (w₁, answer)) :
    ∃ t, (obtainAudio h renv m w).1 = ⟨t, w₁.disk⟩ ∧ ∀ k p, recorded t k = some p →
      recorded w₁.tables k = some p ∨
        k = m.key ∧ ∃ response, answer = .ok response ∧ p = response.filePath := by
  unfold obtainAudio
  rw [if_neg (by simp [hmissing]), hw]
  dsimp only
  split
  · next path err hpath =>
    split
    · refine ⟨_, rfl, fun k p hp => ?_⟩
      rcases recorded_updateLocalPath hp with hold | ⟨hk, rfl⟩
      · exact .inl hold
      · exact .inr ⟨hk, Transcriber.redownloadAudio_some hpath⟩
    · exact ⟨_, rfl, fun k p hp => .inl (recorded_recordRedownloadFailure hp)⟩
  · exact ⟨_, rfl, fun k p hp => .inl (recorded_recordRedownloadFailure hp)⟩

theorem obtainAudio_truthful {h : Handler} {renv : RedownloadEnv} {m : MediaRow}
    (hclear : ClearRequest own h renv.request (redownloadRequest m) w) (hsound : Sound own w)
    (hdelivers : renv.request.download.Delivers (own m.key)) :
    Sound own (obtainAudio h renv m w).1 ∧ RecordsOwn own w (obtainAudio h renv m w).1 := by
  cases hmissing : isFile w.disk m with
  | true =>
    unfold obtainAudio
    rw [if_pos hmissing]
    exact ⟨hsound, fun _ _ hp => .inl hp⟩
  | false =>
    obtain ⟨hsound₁, hrecords₁, hanswer⟩ := downloadMedia_truthful hclear hsound hdelivers rfl
    obtain ⟨t, hafter, hrecords⟩ := obtainAudio_records hmissing rfl
    rw [hafter]
    have hown : RecordsOwn own (downloadMedia h renv.request (some (redownloadRequest m)) w).1
        ⟨t, (downloadMedia h renv.request (some (redownloadRequest m)) w).1.disk⟩ := by
      intro k p hp
      rcases hrecords k p hp with hold | ⟨rfl, response, hok, rfl⟩
      · exact .inl hold
      · exact .inr (hanswer response hok)
    exact ⟨hsound₁.of_records hown, hrecords₁.tables hown⟩

end Clear

/-! ## Runs -/

/-- The message that an attempt is for. -/
def Attempt.key : Attempt → String × String
  | .request _ _ req => req.key
  | .retry _ _ _ m => m.key
  | .redownload _ _ m => m.key

/-- What `client.Download` returns in an attempt is the media of its message. -/
def Attempt.Delivers (own : String × String → List UInt8) : Attempt → Prop
  | .request _ env req => env.download.Delivers (own req.key)
  | .retry _ env _ m => env.Delivers (own m.key)
  | .redownload _ env m => env.request.download.Delivers (own m.key)

/-- The path at which an attempt works is clear. -/
def Attempt.HasClearPath (own : String × String → List UInt8) : Attempt → World → Prop
  | .request h env req, w => ClearRequest own h env req w
  | .retry worker env _ m, w => Clear own env m.key (retryPath worker m) w
  | .redownload h env m, w => ClearRequest own h env.request (redownloadRequest m) w

/-- The path of an answer. -/
def servedPath : Answer → Option String
  | .ok response => some response.filePath
  | .error _ _ _ => none

theorem servedPath_eq_some {answer : Answer} {p : String} (h : servedPath answer = some p) :
    ∃ response, answer = .ok response ∧ p = response.filePath := by
  cases answer with
  | error => cases h
  | ok response => exact ⟨response, rfl, (Option.some.inj h).symm⟩

/-- The path that the bridge serves in an attempt. -/
def Attempt.served : Attempt → World → Option String
  | .request h env req, w => servedPath (downloadMedia h env (some req) w).2
  | .retry _ _ _ _, _ => none
  | .redownload h env m, w =>
    if isFile w.disk m then none
    else servedPath (downloadMedia h env.request (some (redownloadRequest m)) w).2

/-- What is served, and every path that is recorded, is the complete media of its
message. -/
structure Attempt.Truthful (own : String × String → List UInt8) (a : Attempt) (w : World) : Prop where
  served : ∀ p, a.served w = some p → (a.run w).disk.get p = some (.file (own a.key))
  records : RecordsOwn own w (a.run w)

section Run

variable {own : String × String → List UInt8} {a : Attempt} {w : World}

/-- One attempt at a clear path is truthful and keeps the recorded paths sound. -/
theorem attempt_truthful (hsound : Sound own w) (hdelivers : a.Delivers own)
    (hclear : a.HasClearPath own w) : Sound own (a.run w) ∧ a.Truthful own w := by
  cases a with
  | request h env req =>
    obtain ⟨hafter, hrecords, hanswer⟩ := downloadMedia_truthful hclear hsound hdelivers rfl
    refine ⟨hafter, fun p hp => ?_, hrecords⟩
    obtain ⟨response, hok, rfl⟩ := servedPath_eq_some hp
    exact hanswer response hok
  | retry worker env outcome m =>
    obtain ⟨hafter, hrecords⟩ : Sound own ((Attempt.retry worker env outcome m).run w) ∧
        RecordsOwn own w ((Attempt.retry worker env outcome m).run w) :=
      retryOne_truthful hclear hsound hdelivers
    exact ⟨hafter, nofun, hrecords⟩
  | redownload h env m =>
    obtain ⟨hafter, hrecords⟩ := obtainAudio_truthful hclear hsound hdelivers
    refine ⟨hafter, fun p hp => ?_, hrecords⟩
    cases hmissing : isFile w.disk m with
    | true => simp [Attempt.served, hmissing] at hp
    | false =>
      simp only [Attempt.served, hmissing, Bool.false_eq_true, if_false] at hp
      obtain ⟨response, hok, rfl⟩ := servedPath_eq_some hp
      obtain ⟨-, -, hanswer⟩ := downloadMedia_truthful hclear hsound hdelivers rfl
      obtain ⟨t, hdisk, -⟩ := obtainAudio_records hmissing rfl
      show (obtainAudio h env m w).1.disk.get _ = _
      rw [hdisk]
      exact hanswer response hok

/-- In every run whose attempts all work at clear paths, what is served and what is
recorded is the complete media of its message. -/
theorem attempts_truthful {attempts : List Attempt} (hsound : Sound own w)
    (hdelivers : ∀ a ∈ attempts, a.Delivers own)
    (hclear : Along Attempt.run (Attempt.HasClearPath own) w attempts) :
    Along Attempt.run (Attempt.Truthful own) w attempts ∧ Sound own (attempts.foldl Attempt.run w) := by
  induction attempts generalizing w with
  | nil => exact ⟨trivial, hsound⟩
  | cons a attempts ih =>
    obtain ⟨hafter, htruthful⟩ := attempt_truthful hsound (hdelivers a List.mem_cons_self) hclear.1
    obtain ⟨hrest, hend⟩ := ih hafter (fun b hb => hdelivers b (List.mem_cons_of_mem a hb)) hclear.2
    exact ⟨⟨htruthful, hrest⟩, hend⟩

end Run

/-! ## A write that is cut short -/

/-- The four bytes of the image. -/
def sampleOwn : String × String → List UInt8 := fun _ => [7, 8, 9, 10]

/-- WhatsApp delivers the image. -/
def freshUrl : DownloadEnv := { Bridge.Api.staleUrl with fetch := fun _ => .ok [7, 8, 9, 10] }

/-- The disk is full after the first byte. -/
def fullDisk : DownloadEnv :=
  { freshUrl with
    write := some (⟨"write", "/data/media/15@lid/image_20240101_100000.jpg", "no space left on device",
      false⟩, some 1) }

/-- A client asks for the image. -/
def requestWith (env : DownloadEnv) : Attempt :=
  .request sampleHandler { sampleRequestEnv with download := env } sampleDownload

/-- The image that nobody has asked for. -/
def freshWorld : World := ⟨sampleTables none, sampleDisk⟩

theorem recorded_freshWorld (k : String × String) : recorded freshWorld.tables k = none := by
  unfold recorded
  cases hrow : freshWorld.tables.media.lookup k with
  | none => rfl
  | some r =>
    have hmem := Table.mem_of_lookup hrow
    rw [List.mem_singleton.mp hmem]
    rfl

theorem sound_freshWorld (own : String × String → List UInt8) : Sound own freshWorld := by
  intro k p data hp
  rw [recorded_freshWorld] at hp
  cases hp

theorem delivers_freshUrl : freshUrl.Delivers [7, 8, 9, 10] :=
  fun _ _ h => (Except.ok.inj h).symm

theorem attempts_truthful_of_freshUrl :
    Along Attempt.run (Attempt.Truthful sampleOwn) freshWorld [requestWith freshUrl] ∧
      Sound sampleOwn ([requestWith freshUrl].foldl Attempt.run freshWorld) := by
  refine attempts_truthful (sound_freshWorld _) ?_ ⟨fun msg hmsg => ?_, trivial⟩
  · intro a ha
    rw [List.mem_singleton.mp ha]
    exact delivers_freshUrl
  · rw [← Option.some.inj hmsg]
    refine ⟨⟨.inl rfl, by decide +kernel⟩, fun k p _ hp => ?_, fun p hp => ?_, fun hp => ?_⟩
    all_goals
      rw [recorded_freshWorld] at hp
      cases hp

/-- The disk is full after one byte, and the next request serves this byte. -/
theorem part_served_of_fullDisk :
    ¬ ∀ own w attempts, Sound own w → (∀ a ∈ attempts, Attempt.Delivers own a) →
      Along Attempt.run (Attempt.Truthful own) w attempts := by
  intro hclaim
  have htruthful := hclaim sampleOwn freshWorld [requestWith fullDisk, requestWith freshUrl]
    (sound_freshWorld _) (by
      intro a ha
      rcases List.mem_cons.mp ha with rfl | ha
      · exact delivers_freshUrl
      · rw [List.mem_singleton.mp ha]
        exact delivers_freshUrl)
  have hserved := htruthful.2.1.served "/data/media/15@lid/image_20240101_100000.jpg" (by decide +kernel)
  revert hserved
  decide +kernel

end WhatsAppMcp.Downloads
