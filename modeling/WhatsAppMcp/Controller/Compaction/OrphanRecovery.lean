import WhatsAppMcp.Controller.Compaction.Compactor
import WhatsAppMcp.Controller.Compaction.StoredRecords
import WhatsAppMcp.Controller.Pi.CompletionIndex
import WhatsAppMcp.Lib.LineReader

/-!
# The proof that a prepared compaction is an orphan

`compaction/orphan-recovery.ts`: the reader of a session file that lets the operator abort
a prepared checkpoint.  It stands beside `reconcileCheckpoint` of the session host, which
reads the branch that the session library makes of the same file.

An entry is `Live` for the checkpoint where it speaks against an abort: a compaction that
carries the id, a record of the head event, or any entry from the creation of the
checkpoint on.

* `foldlM_live`: a live entry raises the flag of the run over the lines, and it stays raised.
* `orphan_excludes_reconcile`: no proof over a file with a live entry, nor over one whose
  branch reconciles the checkpoint, nor over one that is not UTF-8.
-/

namespace WhatsAppMcp.Controller.Compaction

open Controller.Pi (Json Fields Runtime textOf isHeader identified shaped isDateTime checkedBinding
  checkedMarker bindingType completionType mutationType)

/-! ## One line -/

/-- What a proof is about: the binding, the head event, the prepared checkpoint, and the
settings of the checks. -/
structure OrphanCase where
  env : Runtime
  texts : Texts
  checkpointMaxBytes : Nat
  binding : SessionBinding
  eventId : String
  prepared : CheckpointRecord String

/-- What `provePreparedCompactionOrphan` keeps of the lines that it has consumed.  `live` is
its flag `unsafe`. -/
structure OrphanScan where
  headerSeen : Bool
  bindingCount : Nat
  ids : List String
  live : Bool
  deriving DecidableEq, Repr

def OrphanScan.empty : OrphanScan := ⟨false, 0, [], false⟩

/-- `controllerDetails`. -/
def controllerDetails (value : Option Json) : Option Fields :=
  (value.bind Json.object?).filter fun details =>
    (details.lookup "checkpointId").isSome || (details.lookup "checkpoint").isSome ||
      (details.lookup "version").bind Json.nat? = some 1

/-- `Date.parse(e.timestamp) >= Date.parse(prepared.checkpoint.createdAt)`. -/
def OrphanCase.appended (c : OrphanCase) (e : Fields) : Bool :=
  match (textOf e "timestamp").bind c.env.date, c.env.date c.prepared.checkpoint.createdAt with
  | some t, some created => created ≤ t
  | _, _ => false

/-- The details of a compaction that have members of a stored checkpoint. -/
def OrphanCase.consumeDetails (c : OrphanCase) (s : OrphanScan) (e details : Fields) : Option OrphanScan :=
  match checkedOpaqueId (details.lookup "checkpointId"), checkedCheckpoint (details.lookup "checkpoint") with
  | some checkpointId, some checkpoint =>
    if (details.lookup "version").bind Json.nat? ≠ some 1 ||
        !(e.lookup "fromHook").any (Json.isBool true) then none
    else
      match validateCheckpoint c.texts (some checkpoint) (checkpointIdentity checkpoint)
          c.checkpointMaxBytes with
      | .error _ => none
      | .ok restored =>
        match renderCheckpointSummary c.texts restored checkpointId (checkpointIdentity restored)
            c.checkpointMaxBytes with
        | .error _ => none
        | .ok summary =>
          if textOf e "summary" ≠ some summary then none
          else if checkpointId = c.prepared.checkpointId then
            if restored ≠ c.prepared.checkpoint then none else some { s with live := true }
          else if c.appended e then none
          else some s
  | _, _ => none

/-- A compaction: a claim on the checkpoint, or one that is older than it. -/
def OrphanCase.consumeCompaction (c : OrphanCase) (s : OrphanScan) (e : Fields) : Option OrphanScan :=
  match controllerDetails (e.lookup "details") with
  | some details => c.consumeDetails s e details
  | none => if c.appended e then none else some s

/-- An entry `custom`. -/
def OrphanCase.consumeCustom (c : OrphanCase) (s : OrphanScan) (e : Fields) : Option OrphanScan :=
  match textOf e "customType" with
  | none => none
  | some customType =>
    if customType = bindingType then
      if checkedBinding (e.lookup "data") ≠ some c.binding then none
      else some { s with bindingCount := s.bindingCount + 1 }
    else if customType = completionType then
      match checkedMarker (e.lookup "data") with
      | none => none
      | some marker =>
        if marker.canonicalChatId ≠ c.binding.canonicalChatId then none
        else if marker.eventId = c.eventId then some { s with live := true }
        else some s
    else if customType = mutationType then
      match checkedEnvelope (e.lookup "data") with
      | none => none
      | some journal =>
        if journal.session ≠ c.binding ∨ journal.state.canonicalChatId ≠ c.binding.canonicalChatId then
          none
        else if journal.state.eventId = c.eventId then some { s with live := true }
        else some s
    else if controllerPrefix.toList.isPrefixOf customType.toList then none
    else some s

/-- An entry, after the header. -/
def OrphanCase.consumeEntry (c : OrphanCase) (s : OrphanScan) (e : Fields) : Option OrphanScan :=
  match identified c.env s.ids e with
  | none => none
  | some (type, id) =>
    let s := { s with ids := id :: s.ids }
    if !shaped Json.isFinite s.ids e type then none
    else
      match if type = "compaction" then c.consumeCompaction s e else some s with
      | none => none
      | some s =>
        let s := if c.appended e then { s with live := true } else s
        if type ≠ "custom" then some s else c.consumeCustom s e

/-- `consume`. -/
def OrphanCase.consume (c : OrphanCase) (s : OrphanScan) (line : List Char) : Option OrphanScan :=
  match (c.env.parse (String.ofList line)).bind Json.object? with
  | none => none
  | some e =>
    if !s.headerSeen then
      if isHeader c.env c.binding e then some { s with headerSeen := true } else none
    else c.consumeEntry s e

/-! ## The file -/

/-- `MAX_LINE_BYTES`. -/
def maxLineBytes : Nat := 8 * 1024 * 1024

/-- A line that has not ended is not too long. -/
def admitsPending (pending : List Char) : Bool :=
  (Utf8.encode pending).length ≤ maxLineBytes || pending.contains '\n'

/-- `BigIntStats`, as far as a generation has it. -/
structure GenerationStatus where
  device : Nat
  inode : Nat
  size : Nat
  mtimeNs : Nat
  ctimeNs : Nat
  isFile : Bool
  isSymbolicLink : Bool
  deriving DecidableEq, Repr

/-- `generation`. -/
def GenerationStatus.generation (status : GenerationStatus) : SessionFileGeneration :=
  ⟨status.device.repr, status.inode.repr, status.size.repr, status.mtimeNs.repr, status.ctimeNs.repr⟩

/-- The size and the times of a descriptor are those from before. -/
def GenerationStatus.unchanged (before after : GenerationStatus) : Bool :=
  before.size = after.size && before.mtimeNs = after.mtimeNs && before.ctimeNs = after.ctimeNs

/-- The descriptor and the name have one file. -/
def GenerationStatus.same (fd named : GenerationStatus) : Bool :=
  fd.inode = named.inode && fd.device = named.device && fd.size = named.size &&
    fd.mtimeNs = named.mtimeNs && fd.ctimeNs = named.ctimeNs

/-- What one attempt of the proof meets. -/
structure OrphanAttempt where
  opens : Bool
  before : GenerationStatus
  /-- What successive reads return. -/
  chunks : List (List UInt8)
  after : GenerationStatus
  named : GenerationStatus
  deriving Repr

/-- `timestampNs`. -/
def timestampNs (env : Runtime) (value : String) : Option Int :=
  let rest := value.toList.drop 19
  let zone := afterFraction rest
  let fraction := (rest.take (rest.length - zone.length)).drop 1
  if isDateTime value.toList then
    (env.date (String.ofList (value.toList.take 19 ++ zone))).map fun ms =>
      ms * 1000000 + Nat.ofDigitChars 10 (fraction ++ List.replicate (9 - fraction.length) '0') 0
  else none

/-- The generation is the one that the record is bound to, or older than the checkpoint. -/
def OrphanCase.prior (c : OrphanCase) (after : GenerationStatus) : Bool :=
  match c.prepared.recovery with
  | some recovery => recovery.generation = after.generation
  | none =>
    match timestampNs c.env c.prepared.checkpoint.createdAt with
    | none => false
    | some created => after.mtimeNs < created && after.ctimeNs < created

/-- The lines of an attempt are valid, and none of their entries is live. -/
def OrphanCase.scans (c : OrphanCase) (a : OrphanAttempt) : Bool :=
  (LineReader.read admitsPending c.consume .empty a.before.size a.chunks).any fun s =>
    s.headerSeen && s.bindingCount = 1 && !s.live

/-- One attempt: the answer, or `none` where the next attempt is made. -/
def OrphanCase.attempt (c : OrphanCase) (a : OrphanAttempt) : Option (Option SessionFileGeneration) :=
  if !a.opens || !a.before.isFile || a.before.size = 0 then some none
  else if !a.before.unchanged a.after || !a.after.same a.named then none
  else if !c.scans a || a.named.isSymbolicLink || !c.prior a.after then some none
  else some (some a.after.generation)

/-- `provePreparedCompactionOrphan`: up to eight attempts, where the path is in order. -/
def provePreparedCompactionOrphan (c : OrphanCase) (pathOk : Bool) (attempts : List OrphanAttempt) :
    Option SessionFileGeneration :=
  if pathOk && c.prepared.phase = .prepared &&
      c.prepared.checkpoint.canonicalChatId = c.binding.canonicalChatId then
    ((attempts.take 8).findSome? c.attempt).join
  else none

/-! ## Live entries -/

/-- The value is an object whose field is this text. -/
def Names (value : Option Json) (key text : String) : Prop :=
  ∃ fields, value = some (.object fields) ∧ textOf fields key = some text

/-- An entry that speaks against an abort of the checkpoint. -/
inductive OrphanCase.Live (c : OrphanCase) (e : Fields) : Prop where
  | compaction (type : textOf e "type" = some "compaction")
      (names : Names (e.lookup "details") "checkpointId" c.prepared.checkpointId)
  | completion (type : textOf e "type" = some "custom") (custom : textOf e "customType" = some completionType)
      (names : Names (e.lookup "data") "eventId" c.eventId)
  | mutation (type : textOf e "type" = some "custom") (custom : textOf e "customType" = some mutationType)
      (data : Fields) (stored : e.lookup "data" = some (.object data))
      (names : Names (data.lookup "state") "eventId" c.eventId)
  | dated (type : textOf e "type" ≠ some "session") (appended : c.appended e = true)

/-- The entry is the value of a line of the file, the last one included. -/
def Occurs (env : Runtime) (content : List UInt8) (e : Fields) : Prop :=
  ∃ text, Utf8.decodeText content = some text ∧ ∃ line ∈ text.splitOn '\n', line ≠ [] ∧
    env.parse (String.ofList line) = some (.object e)

section Scan

variable {c : OrphanCase} {s s' : OrphanScan} {e : Fields}

theorem identified_type {env : Runtime} {ids : List String} {type id : String}
    (h : identified env ids e = some (type, id)) : textOf e "type" = some type := by
  unfold identified at h
  split at h
  · next htype _ =>
    split at h <;> cases h
    exact htype
  · cases h

/-- What an entry does: the check of a compaction, the flag for its date, and the check of a
custom entry. -/
theorem consumeEntry_cases (h : c.consumeEntry s e = some s') :
    ∃ type id s₁, textOf e "type" = some type ∧
      (if type = "compaction" then c.consumeCompaction { s with ids := id :: s.ids } e
        else some { s with ids := id :: s.ids }) = some s₁ ∧
      (if type ≠ "custom" then some (if c.appended e then { s₁ with live := true } else s₁)
        else c.consumeCustom (if c.appended e then { s₁ with live := true } else s₁) e) = some s' := by
  unfold OrphanCase.consumeEntry at h
  split at h
  · cases h
  · next type id hidentified =>
    dsimp only at h
    split at h
    · cases h
    · split at h
      · cases h
      · next s₁ hcompaction => exact ⟨type, id, s₁, identified_type hidentified, hcompaction, h⟩

/-- The details of a compaction never lower the flag, and raise it for the checkpoint's id. -/
theorem consumeDetails_live {details : Fields} (h : c.consumeDetails s e details = some s') :
    (s.live = true → s'.live = true) ∧
      (textOf details "checkpointId" = some c.prepared.checkpointId → s'.live = true) := by
  unfold OrphanCase.consumeDetails at h
  split at h
  · next checkpointId checkpoint hid hcheckpoint =>
    split at h
    · cases h
    split at h
    · cases h
    split at h
    · cases h
    split at h
    · cases h
    split at h
    · split at h <;> cases h
      exact ⟨fun _ => rfl, fun _ => rfl⟩
    · next hother =>
      split at h <;> cases h
      refine ⟨id, fun hnames => ?_⟩
      rw [checkedOpaqueId_text hid] at hnames
      exact absurd (Option.some.inj hnames) hother
  · cases h

theorem controllerDetails_of_names {details : Fields} {id : String}
    (h : textOf details "checkpointId" = some id) :
    controllerDetails (some (.object details)) = some details := by
  have hsome : (details.lookup "checkpointId").isSome = true := by
    obtain ⟨v, hv, -⟩ := Option.bind_eq_some_iff.mp h
    rw [hv]
    rfl
  show (some details).filter _ = some details
  rw [Option.filter_some, if_pos]
  simp [hsome]

theorem consumeCompaction_live (h : c.consumeCompaction s e = some s') :
    (s.live = true → s'.live = true) ∧
      (Names (e.lookup "details") "checkpointId" c.prepared.checkpointId → s'.live = true) := by
  unfold OrphanCase.consumeCompaction at h
  split at h
  · next details hdetails =>
    have hlive := consumeDetails_live h
    refine ⟨hlive.1, ?_⟩
    rintro ⟨fields, hfields, hid⟩
    rw [hfields, controllerDetails_of_names hid] at hdetails
    cases hdetails
    exact hlive.2 hid
  · next hnone =>
    split at h <;> cases h
    refine ⟨id, ?_⟩
    rintro ⟨fields, hfields, hid⟩
    rw [hfields, controllerDetails_of_names hid] at hnone
    cases hnone

/-- A custom entry never lowers the flag, and raises it for a record of the head event. -/
theorem consumeCustom_live (h : c.consumeCustom s e = some s') :
    (s.live = true → s'.live = true) ∧
      (textOf e "customType" = some completionType → Names (e.lookup "data") "eventId" c.eventId →
        s'.live = true) ∧
      (textOf e "customType" = some mutationType → ∀ data, e.lookup "data" = some (.object data) →
        Names (data.lookup "state") "eventId" c.eventId → s'.live = true) := by
  unfold OrphanCase.consumeCustom at h
  split at h
  · cases h
  · next customType hcustom =>
    rw [hcustom]
    simp only [Option.some.injEq]
    split at h
    · next hbinding =>
      split at h <;> cases h
      subst hbinding
      exact ⟨id, fun hne => absurd hne (by decide), fun hne => absurd hne (by decide)⟩
    split at h
    · next hcompletion =>
      subst hcompletion
      split at h
      · cases h
      · next marker hmarker =>
        split at h
        · cases h
        split at h
        · cases h
          exact ⟨fun _ => rfl, fun _ _ => rfl, fun _ _ _ _ => rfl⟩
        · next hevent =>
          cases h
          refine ⟨id, ?_, fun hne => absurd hne (by decide)⟩
          rintro - ⟨data, hdata, hnames⟩
          rw [hdata] at hmarker
          rw [checkedMarker_eventId hmarker] at hnames
          exact absurd (Option.some.inj hnames) hevent
    split at h
    · next hmutation =>
      subst hmutation
      split at h
      · cases h
      · next journal hjournal =>
        split at h
        · cases h
        split at h
        · cases h
          exact ⟨fun _ => rfl, fun _ _ => rfl, fun _ _ _ _ => rfl⟩
        · next hevent =>
          cases h
          refine ⟨id, fun hne => absurd hne (by decide), ?_⟩
          rintro - data hdata ⟨state, hstate, hnames⟩
          rw [hdata] at hjournal
          have hstored := checkedEnvelope_state hjournal
          rw [hstate] at hstored
          rw [checkedMutation_eventId hstored] at hnames
          exact absurd (Option.some.inj hnames) hevent
    · next hcompletion hmutation =>
      split at h <;> cases h
      exact ⟨id, fun heq => absurd heq hcompletion, fun heq => absurd heq hmutation⟩

theorem consumeEntry_live (h : c.consumeEntry s e = some s') :
    (s.live = true → s'.live = true) ∧ (c.Live e → s'.live = true) := by
  obtain ⟨type, id, s₁, htype, hcompaction, hcustom⟩ := consumeEntry_cases h
  have hfirst : (s.live = true → s₁.live = true) ∧
      (type = "compaction" → Names (e.lookup "details") "checkpointId" c.prepared.checkpointId →
        s₁.live = true) := by
    split at hcompaction
    · have hlive := consumeCompaction_live hcompaction
      exact ⟨hlive.1, fun _ => hlive.2⟩
    · next hother =>
      cases hcompaction
      exact ⟨fun hs => hs, fun heq => absurd heq hother⟩
  -- The flag of the date is raised before the custom entry is looked at.
  have hdated : ∀ s₂, s₂ = (if c.appended e then { s₁ with live := true } else s₁) →
      (s₁.live = true → s₂.live = true) ∧ (c.appended e = true → s₂.live = true) := by
    rintro s₂ rfl
    split
    · exact ⟨fun _ => rfl, fun _ => rfl⟩
    · next hnot => exact ⟨fun hs => hs, fun happended => absurd happended hnot⟩
  obtain ⟨hkept, happended⟩ := hdated _ rfl
  split at hcustom
  · next hother =>
    cases hcustom
    refine ⟨fun hs => hkept (hfirst.1 hs), ?_⟩
    rintro (⟨hcase, hnames⟩ | ⟨hcase, -, -⟩ | ⟨hcase, -, -, -, -⟩ | ⟨-, hdate⟩)
    · rw [htype] at hcase
      exact hkept (hfirst.2 (Option.some.inj hcase) hnames)
    · rw [htype] at hcase
      exact absurd (Option.some.inj hcase) hother
    · rw [htype] at hcase
      exact absurd (Option.some.inj hcase) hother
    · exact happended hdate
  · next hcase =>
    obtain ⟨hlast, hmarker, hjournal⟩ := consumeCustom_live hcustom
    refine ⟨fun hs => hlast (hkept (hfirst.1 hs)), ?_⟩
    rintro (⟨hcompact, hnames⟩ | ⟨-, htext, hnames⟩ | ⟨-, htext, data, hdata, hnames⟩ | ⟨-, hdate⟩)
    · rw [htype] at hcompact
      exact hlast (hkept (hfirst.2 (Option.some.inj hcompact) hnames))
    · exact hmarker htext hnames
    · exact hjournal htext data hdata hnames
    · exact hlast (happended hdate)

/-- No live entry is the header. -/
theorem OrphanCase.Live.not_header (h : c.Live e) : textOf e "type" ≠ some "session" := by
  intro hsession
  cases h with
  | compaction type names =>
    rw [hsession] at type
    exact absurd (Option.some.inj type) (by decide)
  | completion type custom names =>
    rw [hsession] at type
    exact absurd (Option.some.inj type) (by decide)
  | mutation type custom data stored names =>
    rw [hsession] at type
    exact absurd (Option.some.inj type) (by decide)
  | dated type appended => exact type hsession

theorem consume_live {line : List Char} (h : c.consume s line = some s') :
    (s.live = true → s'.live = true) ∧
      (∀ e, c.env.parse (String.ofList line) = some (.object e) → c.Live e → s'.live = true) := by
  unfold OrphanCase.consume at h
  split at h
  · cases h
  · next e hparse =>
    have hentry : ∀ e', c.env.parse (String.ofList line) = some (.object e') → e' = e := by
      intro e' he'
      rw [he'] at hparse
      exact Option.some.inj hparse
    split at h
    · split at h
      · next hheader =>
        cases h
        refine ⟨id, fun e' he' hlive => ?_⟩
        obtain rfl := hentry e' he'
        simp only [isHeader, Bool.and_eq_true, decide_eq_true_eq] at hheader
        exact absurd hheader.1.1.1.1 hlive.not_header
      · cases h
    · have hlive := consumeEntry_live h
      refine ⟨hlive.1, fun e' he' => ?_⟩
      rw [hentry e' he']
      exact hlive.2

/-- A run over lines with a live entry ends with the flag raised. -/
theorem foldlM_live {lines : List (List Char)} (h : lines.foldlM c.consume s = some s') :
    (s.live = true → s'.live = true) ∧
      (∀ line ∈ lines, ∀ e, c.env.parse (String.ofList line) = some (.object e) → c.Live e →
        s'.live = true) := by
  induction lines generalizing s with
  | nil =>
    cases h
    exact ⟨id, nofun⟩
  | cons line lines ih =>
    rw [List.foldlM_cons] at h
    obtain ⟨s₁, hline, hrest⟩ := Option.bind_eq_some_iff.mp h
    have hfirst := consume_live hline
    have hlast := ih hrest
    refine ⟨fun hs => hlast.1 (hfirst.1 hs), fun l hl e he hlive => ?_⟩
    rcases List.mem_cons.mp hl with rfl | hl
    · exact hlast.1 (hfirst.2 e he hlive)
    · exact hlast.2 l hl e he hlive

end Scan

/-! ## The file -/

/-- The attempt reads this content to its end. -/
structure OrphanAttempt.Reads (a : OrphanAttempt) (content : List UInt8) : Prop where
  size : a.before.size = content.length
  splits : LineReader.Splits content a.chunks

section File

variable {c : OrphanCase} {content : List UInt8} {e : Fields}

/-- A segment of a text without a tail is a line, or empty. -/
theorem mem_lines_of_tail {text line : List Char} (htail : LineReader.tail text = [])
    (h : line ∈ text.splitOn '\n') (hne : line ≠ []) : line ∈ LineReader.lines text := by
  have hsplit := List.dropLast_concat_getLast (List.splitOn_ne_nil '\n' text)
  rw [← hsplit] at h
  rcases List.mem_append.mp h with h | h
  · exact h
  · rw [LineReader.tail, List.getLast?_eq_some_getLast (List.splitOn_ne_nil _ _)] at htail
    rw [List.mem_singleton.mp h] at hne
    exact absurd htail hne

/-- An attempt that finds its lines in order has consumed the lines of the content, and none
of them has raised the flag. -/
theorem scans_text {a : OrphanAttempt} (hreads : a.Reads content) (h : c.scans a = true) :
    ∃ text s, Utf8.decodeText content = some text ∧
      (LineReader.lines text).foldlM c.consume .empty = some s ∧ LineReader.tail text = [] ∧
        s.live = false := by
  unfold OrphanCase.scans at h
  cases hread : LineReader.read admitsPending c.consume .empty a.before.size a.chunks with
  | none =>
    rw [hread] at h
    cases h
  | some s =>
    rw [hread] at h
    simp only [Option.any_some, Bool.and_eq_true, Bool.not_eq_true'] at h
    have hwhole := LineReader.read_of_admitted hread
    rw [hreads.size, LineReader.read_eq hreads.splits] at hwhole
    obtain ⟨text, htext, hconsume⟩ := Option.bind_eq_some_iff.mp hwhole
    obtain ⟨s', hfold, htail⟩ := Option.bind_eq_some_iff.mp hconsume
    split at htail
    · next hnone =>
      cases htail
      exact ⟨text, s, htext, hfold, hnone, h.2⟩
    · cases htail

/-- No live entry is in the file. -/
theorem not_live_of_scans {a : OrphanAttempt} (hreads : a.Reads content) (h : c.scans a = true)
    (hoccurs : Occurs c.env content e) : ¬ c.Live e := by
  intro hlive
  obtain ⟨text, s, htext, hfold, htail, hflag⟩ := scans_text hreads h
  obtain ⟨text', htext', line, hline, hne, hparse⟩ := hoccurs
  rw [htext] at htext'
  cases htext'
  have hraised := (foldlM_live hfold).2 line (mem_lines_of_tail htail hline hne) e hparse hlive
  rw [hflag] at hraised
  cases hraised

/-- A proof has an attempt that finds its lines in order. -/
theorem scans_of_proved {pathOk : Bool} {attempts : List OrphanAttempt}
    (h : (provePreparedCompactionOrphan c pathOk attempts).isSome = true) :
    ∃ a ∈ attempts, c.scans a = true := by
  unfold provePreparedCompactionOrphan at h
  split at h
  · cases hfound : (attempts.take 8).findSome? c.attempt with
    | none =>
      rw [hfound] at h
      cases h
    | some answer =>
      obtain ⟨a, ha, hattempt⟩ := List.exists_of_findSome?_eq_some hfound
      refine ⟨a, List.mem_of_mem_take ha, ?_⟩
      rw [hfound] at h
      by_contra hscans
      unfold OrphanCase.attempt at hattempt
      rw [Bool.eq_false_of_not_eq_true hscans] at hattempt
      split at hattempt
      · cases hattempt
        cases h
      split at hattempt
      · cases hattempt
      · cases hattempt
        cases h
  · cases h

/-- A proof has decoded the file. -/
theorem decoded_of_proved {pathOk : Bool} {attempts : List OrphanAttempt}
    (hreads : ∀ a ∈ attempts, a.Reads content)
    (hproved : (provePreparedCompactionOrphan c pathOk attempts).isSome = true) :
    (Utf8.decodeText content).isSome = true := by
  obtain ⟨a, ha, hscans⟩ := scans_of_proved hproved
  obtain ⟨text, s, htext, -⟩ := scans_text (hreads a ha) hscans
  exact Option.isSome_of_eq_some htext

/-- No proof over a file with a live entry. -/
theorem provePreparedCompactionOrphan_live {pathOk : Bool} {attempts : List OrphanAttempt}
    (hreads : ∀ a ∈ attempts, a.Reads content) (hoccurs : Occurs c.env content e) (hlive : c.Live e) :
    provePreparedCompactionOrphan c pathOk attempts = none := by
  rw [← Option.not_isSome_iff_eq_none]
  intro hproved
  obtain ⟨a, ha, hscans⟩ := scans_of_proved hproved
  exact not_live_of_scans (hreads a ha) hscans hoccurs hlive

/-- A branch that reconciles a checkpoint has an entry that is live for it. -/
theorem live_of_reconciled {settings : Settings} {same : Bool} {branch : List Fields}
    {found : String × CheckpointV1}
    (h : reconciled settings c.prepared ⟨same, compactionEntries branch⟩ = .ok found) :
    ∃ e ∈ branch, c.Live e := by
  unfold reconciled at h
  split at h
  · cases h
  split at h
  · next entry honly =>
    have hentry : entry ∈ claims c.prepared.checkpointId (compactionEntries branch) := by
      rw [honly]
      exact List.mem_singleton_self entry
    unfold claims at hentry
    obtain ⟨hmem, hid⟩ := List.mem_filter.mp hentry
    obtain ⟨e, he, hdecoded⟩ := List.mem_filterMap.mp hmem
    refine ⟨e, he, ?_⟩
    unfold compactionEntry at hdecoded
    split at hdecoded
    · next htype =>
      cases hdecoded
      apply OrphanCase.Live.compaction htype
      cases hdetails : storedDetails (e.lookup "details") with
      | none =>
        rw [hdetails] at hid
        cases hid
      | some stored =>
        rw [hdetails] at hid
        obtain ⟨details, hobject, hrest⟩ := Option.bind_eq_some_iff.mp hdetails
        obtain ⟨checkpointId, htext, heq⟩ := Option.bind_eq_some_iff.mp hrest
        cases heq
        have hsame : checkpointId = c.prepared.checkpointId := of_decide_eq_true hid
        exact ⟨details, object_of_bind hobject, hsame ▸ htext⟩
    · cases hdecoded
  · cases h

/-- The proof and the reconciliation exclude each other: where the branch has the lines of
the file, they never both succeed; and no proof succeeds over a file with a live entry, nor over
one that is not UTF-8. -/
theorem orphan_excludes_reconcile {pathOk : Bool} {attempts : List OrphanAttempt}
    (hreads : ∀ a ∈ attempts, a.Reads content) :
    (∀ (settings : Settings) (same : Bool) (branch : List Fields),
      ((Utf8.decodeText content).isSome = true → ∀ e ∈ branch, Occurs c.env content e) →
        ¬ ((provePreparedCompactionOrphan c pathOk attempts).isSome = true ∧
          ∃ found, reconciled settings c.prepared ⟨same, compactionEntries branch⟩ = .ok found)) ∧
      (∀ e, Occurs c.env content e → c.Live e →
        provePreparedCompactionOrphan c pathOk attempts = none) ∧
      (Utf8.decodeText content = none → provePreparedCompactionOrphan c pathOk attempts = none) := by
  refine ⟨?_, fun e => provePreparedCompactionOrphan_live hreads, fun hbroken => ?_⟩
  · rintro settings same branch hbranch ⟨hproved, found, hfound⟩
    obtain ⟨e, he, hlive⟩ := live_of_reconciled hfound
    have hoccurs : Occurs c.env content e := hbranch (decoded_of_proved hreads hproved) e he
    rw [provePreparedCompactionOrphan_live hreads hoccurs hlive] at hproved
    cases hproved
  · rw [← Option.not_isSome_iff_eq_none]
    intro hproved
    have hdecoded := decoded_of_proved hreads hproved
    rw [hbroken] at hdecoded
    cases hdecoded

end File

/-! ## A file with an entry from after the checkpoint -/

namespace SampleCase

def created : String := "2026-01-02T00:00:00Z"

def infoLine : String :=
  "\x7b\"type\":\"session_info\",\"id\":\"b\",\"parentId\":\"a\",\"timestamp\":\"2026-01-02T00:00:00Z\",\"name\":\"x\"\x7d"

def info : Fields :=
  [("type", .string "session_info"), ("id", .string "b"), ("parentId", .string "a"),
    ("timestamp", .string created), ("name", .string "x")]

def checkpoint : CheckpointV1 :=
  { canonicalChatId := "49@g.us", lastCompletedSequence := 1, policyVersion := "1", templateVersion := "1"
    createdAt := created, goals := [], decisions := [], constraints := []
    verifiedFacts := [], pendingWork := [], approvalBoundaries := [], nextSteps := []
    confirmedToolOutcomes := [] }

/-- A checkpoint of the day after the file began. -/
def case : OrphanCase where
  env :=
    ⟨fun line => if line = infoLine then some (.object info) else Pi.SampleFile.runtime.parse line,
      fun text => if text = created then some 1767312000000 else Pi.SampleFile.runtime.date text⟩
  texts := ⟨fun _ => false, fun _ => false, fun _ => "", fun _ => true, fun _ => none⟩
  checkpointMaxBytes := 262144
  binding := Pi.SampleFile.binding
  eventId := "fedcba9876543210fedcba9876543210"
  prepared := ⟨"0123456789abcdef0123456789abcdef", checkpoint, none, .prepared, none⟩

def headerLine : List Char := Pi.SampleFile.headerStart.toList ++ 'é' :: Pi.SampleFile.headerEnd.toList

/-- The header and the binding. -/
def text : List Char := headerLine ++ '\n' :: (Pi.SampleFile.bindingLine.toList ++ '\n' :: [])

/-- The same with the entry. -/
def longText : List Char := text ++ (infoLine.toList ++ '\n' :: [])

def status (text : List Char) : GenerationStatus :=
  ⟨1, 2, (Utf8.encode text).length, 1767225600000000000, 1767225600000000000, true, false⟩

/-- The file is read at once. -/
def attempt (text : List Char) : OrphanAttempt :=
  ⟨true, status text, [Utf8.encode text], status text, status text⟩

set_option maxRecDepth 4000 in
theorem headerLine_eq : ∃ rest, headerLine = '{' :: rest ∧ '\n' ∉ headerLine ∧ headerLine.length ≤ 200 := by
  unfold headerLine
  rw [show Pi.SampleFile.headerStart = String.ofList _ from rfl, String.toList_ofList,
    show Pi.SampleFile.headerEnd = String.ofList _ from rfl, String.toList_ofList]
  exact ⟨_, rfl, by decide +kernel, by decide +kernel⟩

set_option maxRecDepth 4000 in
theorem bindingLine_open : '\n' ∉ Pi.SampleFile.bindingLine.toList ∧ Pi.SampleFile.bindingLine.toList.length ≤ 400 := by
  rw [show Pi.SampleFile.bindingLine = String.ofList _ from rfl, String.toList_ofList]
  decide +kernel

set_option maxRecDepth 4000 in
theorem infoLine_open : '\n' ∉ infoLine.toList ∧ infoLine.toList.length ≤ 400 ∧ infoLine.toList ≠ [] := by
  rw [show infoLine = String.ofList _ from rfl, String.toList_ofList]
  decide +kernel

theorem consume_of_parse {s : OrphanScan} {line : List Char} {e : Fields}
    (h : case.env.parse (String.ofList line) = some (.object e)) :
    case.consume s line =
      if !s.headerSeen then
        if isHeader case.env case.binding e then some { s with headerSeen := true } else none
      else case.consumeEntry s e := by
  unfold OrphanCase.consume
  rw [h]
  rfl

theorem consume_header :
    case.consume .empty headerLine = some ⟨true, 0, [], false⟩ := by
  have hinfo : String.ofList headerLine ≠ infoLine := by
    intro h
    have hlength := congrArg String.length h
    revert hlength
    decide +kernel
  have htext : String.ofList headerLine = Pi.SampleFile.headerStart ++ "é" ++ Pi.SampleFile.headerEnd :=
    String.toList_inj.mp (by simp [headerLine])
  have hparse : case.env.parse (String.ofList headerLine) = some Pi.SampleFile.header := by
    rw [htext] at hinfo ⊢
    simp [case, Pi.SampleFile.runtime, hinfo]
  have hheader : isHeader case.env case.binding [("type", .string "session"), ("version", .number "3"),
      ("id", .string "s1"), ("cwd", .string "/é"), ("timestamp", .string Pi.SampleFile.created)] = true := by
    decide +kernel
  rw [consume_of_parse hparse, if_pos (show (!OrphanScan.empty.headerSeen) = true from rfl), if_pos hheader]
  rfl

theorem consume_binding :
    case.consume ⟨true, 0, [], false⟩ Pi.SampleFile.bindingLine.toList = some ⟨true, 1, ["a"], false⟩ := by
  have hinfo : Pi.SampleFile.bindingLine ≠ infoLine := by decide +kernel
  have hheader : Pi.SampleFile.bindingLine ≠ Pi.SampleFile.headerStart ++ "é" ++ Pi.SampleFile.headerEnd := by
    decide +kernel
  have hparse : case.env.parse (String.ofList Pi.SampleFile.bindingLine.toList) =
      some Pi.SampleFile.bindingEntry := by
    simp [case, Pi.SampleFile.runtime, hinfo, hheader]
  have hentry : case.consumeEntry ⟨true, 0, [], false⟩
      [("type", .string "custom"), ("id", .string "a"), ("parentId", .null),
        ("timestamp", .string Pi.SampleFile.created), ("customType", .string bindingType),
        ("data", .object [("canonicalChatId", .string "49@g.us"), ("sessionId", .string "s1"),
          ("sessionFile", .string "/s/a.jsonl")])] = some ⟨true, 1, ["a"], false⟩ := by decide +kernel
  rw [consume_of_parse hparse, if_neg (by decide)]
  exact hentry

set_option maxRecDepth 4000 in
theorem consume_text : LineReader.consumeText case.consume .empty text = some ⟨true, 1, ["a"], false⟩ := by
  obtain ⟨-, -, hheader, -⟩ := headerLine_eq
  unfold text
  rw [LineReader.consumeText_line hheader, consume_header, Option.bind_some,
    LineReader.consumeText_line bindingLine_open.1, consume_binding]
  rfl

theorem dropMark_text (more : List Char) : Utf8.dropMark (text ++ more) = text ++ more := by
  obtain ⟨rest, hrest, -⟩ := headerLine_eq
  unfold text
  rw [hrest]
  rfl

theorem encode_text_ne_nil : Utf8.encode text ≠ [] := by
  obtain ⟨rest, hrest, -⟩ := headerLine_eq
  unfold text
  rw [hrest]
  simp [Utf8.encode]

theorem length_text : (Utf8.encode text).length ≤ maxLineBytes := by
  have htext : text.length ≤ 700 := by
    obtain ⟨-, -, -, hheader⟩ := headerLine_eq
    have := bindingLine_open.2
    unfold text
    simp only [List.length_append, List.length_cons, List.length_nil]
    omega
  have := Utf8.length_encode_le text
  unfold maxLineBytes
  omega

/-- Without the entry the lines are valid, and none is live. -/
theorem scans_text_sample : case.scans (attempt text) = true := by
  have hmark := dropMark_text []
  rw [List.append_nil] at hmark
  have hadmits : ∀ d, Utf8.TextDecoder.start.stream (Utf8.encode text) = some d →
      admitsPending d.2 = true := by
    intro d hd
    unfold Utf8.TextDecoder.stream Utf8.TextDecoder.start at hd
    rw [Utf8.Decoder.run_encode] at hd
    have htext : d.2 = text := by
      rw [← Option.some.inj hd]
      exact hmark
    rw [htext, admitsPending, Bool.or_eq_true, decide_eq_true_eq]
    exact .inl length_text
  have hread : LineReader.read admitsPending case.consume .empty (Utf8.encode text).length
      [Utf8.encode text] = some ⟨true, 1, ["a"], false⟩ := by
    rw [LineReader.read_whole encode_text_ne_nil hadmits, Utf8.decodeText, Utf8.decode_encode,
      Option.map_some, hmark, Option.bind_some, consume_text]
  show (LineReader.read admitsPending case.consume .empty (Utf8.encode text).length
    [Utf8.encode text]).any _ = true
  rw [hread]
  rfl

theorem attempts_read : ∀ a ∈ [attempt longText], a.Reads (Utf8.encode longText) := by
  have hne : Utf8.encode longText ≠ [] := by
    unfold longText
    rw [Utf8.encode, List.flatMap_append]
    exact List.append_ne_nil_of_left_ne_nil encode_text_ne_nil _
  intro a ha
  rw [List.mem_singleton.mp ha]
  exact ⟨rfl, by simp [attempt], by simpa [attempt] using hne⟩

theorem occurs_info : Occurs case.env (Utf8.encode longText) info := by
  obtain ⟨-, -, hheader, -⟩ := headerLine_eq
  refine ⟨longText, ?_, infoLine.toList, ?_, infoLine_open.2.2, ?_⟩
  · rw [Utf8.decodeText, Utf8.decode_encode]
    exact congrArg some (dropMark_text _)
  · unfold longText text
    rw [List.append_assoc, List.cons_append, List.splitOn_append_cons_self_of_not_mem hheader,
      List.append_assoc, List.cons_append,
      List.splitOn_append_cons_self_of_not_mem bindingLine_open.1, List.nil_append,
      List.splitOn_append_cons_self_of_not_mem infoLine_open.1]
    simp
  · simp [case]

theorem info_live : case.Live info := .dated (by decide +kernel) (by decide +kernel)

end SampleCase

/-- The abort of the checkpoint is proved over the file, until an entry is appended. -/
theorem orphan_sample :
    (provePreparedCompactionOrphan SampleCase.case true [SampleCase.attempt SampleCase.text]).isSome = true ∧
      provePreparedCompactionOrphan SampleCase.case true [SampleCase.attempt SampleCase.longText] = none := by
  refine ⟨?_, (orphan_excludes_reconcile SampleCase.attempts_read).2.1 SampleCase.info
    SampleCase.occurs_info SampleCase.info_live⟩
  have hattempt : SampleCase.case.attempt (SampleCase.attempt SampleCase.text) =
      some (some (SampleCase.status SampleCase.text).generation) := by
    have hsize : (SampleCase.status SampleCase.text).size ≠ 0 := fun h =>
      SampleCase.encode_text_ne_nil (List.length_eq_zero_iff.mp h)
    have hprior : SampleCase.case.prior (SampleCase.status SampleCase.text) = true := by decide +kernel
    unfold OrphanCase.attempt
    rw [SampleCase.scans_text_sample]
    simp [SampleCase.attempt, hsize, hprior, GenerationStatus.unchanged, GenerationStatus.same]
    rfl
  have hprepared : (true && SampleCase.case.prepared.phase = .prepared &&
      SampleCase.case.prepared.checkpoint.canonicalChatId = SampleCase.case.binding.canonicalChatId) = true := by
    decide
  unfold provePreparedCompactionOrphan
  rw [if_pos hprepared]
  simp [hattempt]

end WhatsAppMcp.Controller.Compaction
