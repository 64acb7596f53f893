import WhatsAppMcp.Bridge.Store.Schema

/-!
# The media rows

`bridge/store/media.go` and migration 7: the rows of `messages_media`, and the
statements that record how a download ended.

* A row references its message: `MediaTables.references`.
* `Retryable` is the selection of `ListRetryableMedia`.
* `markMediaDownloadFailed_of_records` says what a failure leaves behind, and what is
  returned for it, where the statement takes effect.  Elsewhere nothing changes.
-/

namespace WhatsAppMcp.Bridge.Store

/-! ## Rows -/

/-- The values that the `CHECK` of `media_type` allows. -/
inductive MediaType where
  | image
  | video
  | audio
  | sticker
  | document
  deriving DecidableEq, Repr

/-- The text of a media type. -/
def MediaType.text : MediaType → String
  | .image => "image"
  | .video => "video"
  | .audio => "audio"
  | .sticker => "sticker"
  | .document => "document"

/-- A row of `messages_media`, with the columns that the downloads use. -/
structure MediaRow where
  messageId : String
  chatJid : String
  mediaType : MediaType
  filename : Option String
  fileLength : Option Int
  mediaKey : Option (List UInt8)
  fileSha256 : Option (List UInt8)
  fileEncSha256 : Option (List UInt8)
  url : Option String
  localPath : Option String
  downloadAttempts : Int
  downloadLastError : Option String
  downloadPermanentlyFailed : Bool
  transcribed : Bool
  createdAt : Int
  deriving DecidableEq, Repr

/-- The primary key `(message_id, chat_jid)`. -/
def MediaRow.key (r : MediaRow) : String × String := (r.messageId, r.chatJid)

/-- `messages` and `messages_media`, with the foreign key between them. -/
structure MediaTables where
  messages : Table StoredMessage (String × String) (·.key)
  media : Table MediaRow (String × String) MediaRow.key
  references : ∀ r ∈ media, ∃ m ∈ messages, m.key = r.key

/-- `UPDATE messages_media SET … WHERE message_id = … AND chat_jid = …`. -/
def MediaTables.update (t : MediaTables) (key : String × String) (f : MediaRow → MediaRow)
    (hf : ∀ r, (f r).key = r.key) : MediaTables :=
  { t with
    media := t.media.update (fun r => r.key = key) f hf
    references := by
      intro r hr
      obtain ⟨r₀, hr₀, rfl⟩ := Table.mem_update.mp hr
      obtain ⟨m, hm, hkey⟩ := t.references r₀ hr₀
      refine ⟨m, hm, hkey.trans ?_⟩
      split
      · exact (hf r₀).symm
      · rfl }

@[simp] theorem MediaTables.messages_update {t : MediaTables} {key : String × String}
    {f : MediaRow → MediaRow} {hf : ∀ r, (f r).key = r.key} : (t.update key f hf).messages = t.messages :=
  rfl

theorem MediaTables.lookup_update {t : MediaTables} {key k : String × String} {f : MediaRow → MediaRow}
    {hf : ∀ r, (f r).key = r.key} :
    (t.update key f hf).media.lookup k = if k = key then (t.media.lookup k).map f else t.media.lookup k := by
  show (Table.update _ _ f hf).lookup k = _
  exact Table.lookup_update_key fun _ => rfl

/-! ## The end of a write -/

/-- How an operation that the store submits ends: it is committed, it is refused or
fails before the commit, or the commit returns an error and may have been applied. -/
inductive WriteOutcome where
  | committed
  | refused
  | unconfirmed (applied : Bool)
  deriving DecidableEq, Repr

/-- The operation is in the database. -/
def WriteOutcome.applied : WriteOutcome → Bool
  | .committed => true
  | .refused => false
  | .unconfirmed applied => applied

/-! ## Statements -/

/-- The row after a download that worked. -/
def MediaRow.downloaded (r : MediaRow) (localPath : String) : MediaRow :=
  { r with
    localPath := some localPath
    downloadAttempts := 0
    downloadLastError := none
    downloadPermanentlyFailed := false }

theorem MediaRow.key_downloaded (localPath : String) (r : MediaRow) : (r.downloaded localPath).key = r.key :=
  rfl

/-- `MarkMediaDownloaded`. -/
def markMediaDownloaded (outcome : WriteOutcome) (key : String × String) (localPath : String)
    (t : MediaTables) : MediaTables :=
  if outcome.applied then t.update key (·.downloaded localPath) (MediaRow.key_downloaded localPath) else t

/-- `LEFT(…, 500)`. -/
def left500 (text : String) : String := String.ofList (text.toList.take 500)

/-- The row after a download that failed. -/
def MediaRow.failed (r : MediaRow) (errMsg : String) (structural : Bool) (maxAttempts : Int) : MediaRow :=
  { r with
    downloadAttempts := r.downloadAttempts + 1
    downloadLastError := some (left500 errMsg)
    downloadPermanentlyFailed :=
      r.downloadPermanentlyFailed || structural || r.downloadAttempts + 1 ≥ maxAttempts }

theorem MediaRow.key_failed (errMsg : String) (structural : Bool) (maxAttempts : Int) (r : MediaRow) :
    (r.failed errMsg structural maxAttempts).key = r.key :=
  rfl

/-- A value of the type `INTEGER`. -/
def isInteger (n : Int) : Bool := -2 ^ 31 ≤ n && n < 2 ^ 31

/-- The row that `MarkMediaDownloadFailed` updates, where its statement is one that the
server can run. -/
def MediaTables.failing (t : MediaTables) (key : String × String) (maxAttempts : Int) :
    Option MediaRow :=
  (t.media.lookup key).filter fun r => isInteger (r.downloadAttempts + 1) && isInteger maxAttempts

/-- `MarkMediaDownloadFailed`: the permanence that it returns, and whether it returns no
error.  A row that is missing is `sql.ErrNoRows`. -/
def markMediaDownloadFailed (outcome : WriteOutcome) (key : String × String) (errMsg : String)
    (structural : Bool) (maxAttempts : Int) (t : MediaTables) : MediaTables × Bool × Bool :=
  match outcome, t.failing key maxAttempts with
  | .refused, _ | _, none => (t, false, false)
  | _, some r =>
    (if outcome.applied then
        t.update key (·.failed errMsg structural maxAttempts)
          (MediaRow.key_failed errMsg structural maxAttempts)
      else t,
      (r.failed errMsg structural maxAttempts).downloadPermanentlyFailed, decide (outcome = .committed))

/-- The rows that `ListRetryableMedia` selects. -/
def Retryable (maxAttempts : Int) (r : MediaRow) : Bool :=
  r.localPath = none && !r.downloadPermanentlyFailed &&
    r.mediaType ∈ [.image, .video, .sticker, .document] &&
    0 < r.downloadAttempts && r.downloadAttempts < maxAttempts

theorem retryable_iff {maxAttempts : Int} {r : MediaRow} :
    Retryable maxAttempts r = true ↔ r.localPath = none ∧ r.mediaType ≠ .audio ∧
      r.downloadPermanentlyFailed = false ∧ 0 < r.downloadAttempts ∧ r.downloadAttempts < maxAttempts := by
  unfold Retryable
  cases r.mediaType <;> simp [and_assoc]

/-! ## What a failure leaves behind -/

/-- A failure that is not permanent makes the row one to retry, where nothing but its
attempts kept it from being one. -/
theorem retryable_failed {errMsg : String} {structural : Bool} {maxAttempts : Int} {r : MediaRow}
    (h : (r.failed errMsg structural maxAttempts).downloadPermanentlyFailed = false) :
    Retryable maxAttempts (r.failed errMsg structural maxAttempts) = true ↔
      r.localPath = none ∧ r.mediaType ≠ .audio ∧ 0 ≤ r.downloadAttempts := by
  have hbelow : r.downloadAttempts + 1 < maxAttempts := by
    have hor := h
    simp only [MediaRow.failed, Bool.or_eq_false_iff, decide_eq_false_iff_not] at hor
    omega
  rw [retryable_iff]
  show r.localPath = none ∧ r.mediaType ≠ .audio ∧ _ ∧ 0 < r.downloadAttempts + 1 ∧
    r.downloadAttempts + 1 < maxAttempts ↔ _
  constructor
  · intro hretry
    exact ⟨hretry.1, hretry.2.1, by omega⟩
  · intro hrow
    exact ⟨hrow.1, hrow.2.1, h, by omega, hbelow⟩

section Failed

variable {outcome : WriteOutcome} {key : String × String} {maxAttempts : Int} {t : MediaTables}

/-- The failure of a download gets into the database. -/
def MediaTables.Records (t : MediaTables) (outcome : WriteOutcome) (key : String × String)
    (maxAttempts : Int) : Bool :=
  outcome.applied && (t.failing key maxAttempts).isSome

theorem markMediaDownloadFailed_of_records (errMsg : String) (structural : Bool)
    (h : t.Records outcome key maxAttempts = true) :
    ∃ r, t.media.lookup key = some r ∧
      (markMediaDownloadFailed outcome key errMsg structural maxAttempts t).1 =
        t.update key (·.failed errMsg structural maxAttempts)
          (MediaRow.key_failed errMsg structural maxAttempts) ∧
      (markMediaDownloadFailed outcome key errMsg structural maxAttempts t).2.1 =
        (r.failed errMsg structural maxAttempts).downloadPermanentlyFailed := by
  obtain ⟨happlied, hsome⟩ := Bool.and_eq_true_iff.mp h
  obtain ⟨r, hrow⟩ := Option.isSome_iff_exists.mp hsome
  refine ⟨r, (Option.filter_eq_some_iff.mp hrow).1, ?_⟩
  unfold markMediaDownloadFailed
  rw [hrow]
  cases outcome with
  | committed => exact ⟨rfl, rfl⟩
  | refused => cases happlied
  | unconfirmed applied =>
    rw [show applied = true from happlied]
    exact ⟨rfl, rfl⟩

theorem markMediaDownloadFailed_of_not_records (errMsg : String) (structural : Bool)
    (h : t.Records outcome key maxAttempts = false) :
    (markMediaDownloadFailed outcome key errMsg structural maxAttempts t).1 = t := by
  unfold MediaTables.Records at h
  unfold markMediaDownloadFailed
  cases hrow : t.failing key maxAttempts with
  | none => cases outcome <;> rfl
  | some r =>
    simp only [hrow, Option.isSome_some, Bool.and_true] at h
    cases outcome with
    | refused => rfl
    | committed => cases h
    | unconfirmed applied =>
      rw [show applied = false from h]
      rfl

/-- The attempts of a row and its permanence. -/
def MediaTables.counters (t : MediaTables) (key : String × String) : Option (Int × Bool) :=
  (t.media.lookup key).map fun r => (r.downloadAttempts, r.downloadPermanentlyFailed)

/-- An update of one row keeps the counters of every row, where it keeps those of this
row. -/
theorem counters_update_iff {f : MediaRow → MediaRow} {hf : ∀ r, (f r).key = r.key} :
    (∀ k, (t.update key f hf).counters k = t.counters k) ↔
      ∀ r, t.media.lookup key = some r → (f r).downloadAttempts = r.downloadAttempts ∧
        (f r).downloadPermanentlyFailed = r.downloadPermanentlyFailed := by
  unfold MediaTables.counters
  simp only [MediaTables.lookup_update]
  constructor
  · intro hkept r hr
    have hself := hkept key
    rw [if_pos rfl, hr] at hself
    exact Prod.mk.inj (Option.some.inj hself)
  · intro hrow k
    split
    · next hk =>
      subst hk
      cases hr : t.media.lookup k with
      | none => rfl
      | some r => exact congrArg some (Prod.ext (hrow r hr).1 (hrow r hr).2)
    · rfl

/-- The counters are kept if and only if the failure does not get into the database. -/
theorem counters_markMediaDownloadFailed_iff (errMsg : String) (structural : Bool) :
    (∀ k, (markMediaDownloadFailed outcome key errMsg structural maxAttempts t).1.counters k =
        t.counters k) ↔ t.Records outcome key maxAttempts = false := by
  cases hrecords : t.Records outcome key maxAttempts with
  | false => simp [markMediaDownloadFailed_of_not_records errMsg structural hrecords]
  | true =>
    obtain ⟨r, hr, hafter, -⟩ := markMediaDownloadFailed_of_records errMsg structural hrecords
    rw [hafter, counters_update_iff]
    simp only [Bool.true_eq_false, iff_false, not_forall]
    refine ⟨r, hr, fun hkept => ?_⟩
    have hattempts : r.downloadAttempts + 1 = r.downloadAttempts := hkept.1
    omega

end Failed

end WhatsAppMcp.Bridge.Store
