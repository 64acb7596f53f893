import WhatsAppMcp.Bridge.Values
import WhatsAppMcp.Controller.Compaction.Branch

/-!
# Checkpoints and their summaries

A checkpoint is validated against the identity that it was asked for, and its
summary is rendered from it.  A compaction entry of a session branch is evidence
of a checkpoint where it is the only one with the checkpoint's id and carries
exactly the payload and the summary.

The patterns of secrets and the JSON text of a checkpoint stay parameters, so what
is proved holds for every choice of them.
-/

namespace WhatsAppMcp.Controller.Compaction

/-! ## Identity and validation -/

/-- `CheckpointIdentity`. -/
structure CheckpointIdentity where
  canonicalChatId : String
  lastCompletedSequence : Nat
  policyVersion : String
  templateVersion : String
  createdAt : String
  deriving DecidableEq, Repr

/-- `checkpointIdentity`. -/
def checkpointIdentity (seed : CheckpointV1) : CheckpointIdentity :=
  ⟨seed.canonicalChatId, seed.lastCompletedSequence, seed.policyVersion, seed.templateVersion,
    seed.createdAt⟩

/-- What the checks ask about texts. -/
structure Texts where
  /-- `containsSensitive` of a checkpoint. -/
  sensitive : CheckpointV1 → Bool
  /-- `containsSensitive` of a summary. -/
  sensitiveText : String → Bool
  /-- `JSON.stringify` of a checkpoint. -/
  stringify : CheckpointV1 → String
  /-- `CheckpointV1Schema`. -/
  schema : CheckpointV1 → Bool
  /-- `JSON.parse` with `CheckpointV1Schema`. -/
  parse : String → Option CheckpointV1

/-- `noteValues`. -/
def noteValues (c : CheckpointV1) : List String :=
  c.goals ++ c.decisions ++ c.constraints ++ c.verifiedFacts ++ c.pendingWork ++
    c.approvalBoundaries ++ c.nextSteps

/-- `/[\r\n]/u.test(note)`. -/
def breaksLine (note : String) : Bool := note.toList.any fun c => c = '\r' || c = '\n'

/-- `validateCheckpoint`. -/
def validateCheckpoint (texts : Texts) (value : Option CheckpointV1) (expected : CheckpointIdentity)
    (maximumBytes : Nat) : Except ErrorClass CheckpointV1 :=
  if maximumBytes < 1024 ∨ 262144 < maximumBytes then .error .checkpointInvalid
  else
    match value with
    | none => .error .checkpointInvalid
    | some checkpoint =>
      if (noteValues checkpoint).any breaksLine then .error .checkpointInvalid
      else if ¬ (checkpoint.confirmedToolOutcomes.map ToolOutcome.attemptId).Nodup then
        .error .checkpointInvalid
      else if checkpointIdentity checkpoint ≠ expected ∨ texts.sensitive checkpoint then
        .error .checkpointInvalid
      else if maximumBytes < (texts.stringify checkpoint).utf8ByteSize then .error .checkpointInvalid
      else .ok checkpoint

theorem validateCheckpoint_ok {texts : Texts} {value : Option CheckpointV1}
    {expected : CheckpointIdentity} {maximumBytes : Nat} {c : CheckpointV1}
    (h : validateCheckpoint texts value expected maximumBytes = .ok c) :
    value = some c ∧ checkpointIdentity c = expected := by
  unfold validateCheckpoint at h
  split at h
  · cases h
  · split at h
    · cases h
    · split_ifs at h with hnotes hattempts hidentity hbytes
      cases h
      push Not at hidentity
      exact ⟨rfl, hidentity.1⟩

/-! ## The summary -/

/-- `lines`. -/
def lines (title : String) (values : List String) : List String :=
  s!"## {title}" ::
    if values = [] then ["- None recorded."] else values.map fun v => s!"- {v}"

/-- The text of a summary. -/
def summaryText (c : CheckpointV1) (checkpointId : String) : String :=
  "\n".intercalate (["## Checkpoint Metadata", s!"- Checkpoint ID: {checkpointId}",
      s!"- Created at: {c.createdAt}"] ++
    lines "Goals" c.goals ++ lines "Decisions" c.decisions ++ lines "Constraints" c.constraints ++
    lines "Verified Facts" c.verifiedFacts ++ lines "Pending Work" c.pendingWork ++
    lines "Confirmed Tool Outcomes"
      (c.confirmedToolOutcomes.map fun v => s!"{v.tool}: {v.destination} ({v.messageId})") ++
    lines "Approval Boundaries" c.approvalBoundaries ++ lines "Next Steps" c.nextSteps ++
    ["## Continuity", s!"- Canonical chat: {c.canonicalChatId}",
      s!"- Last completed sequence: {c.lastCompletedSequence}",
      s!"- Policy version: {c.policyVersion}", s!"- Template version: {c.templateVersion}"])

/-- `renderCheckpointSummary`. -/
def renderCheckpointSummary (texts : Texts) (checkpoint : CheckpointV1) (checkpointId : String)
    (expected : CheckpointIdentity) (maximumBytes : Nat) : Except ErrorClass String := do
  let c ← validateCheckpoint texts (some checkpoint) expected maximumBytes
  if Bridge.isOpaqueId checkpointId = false then throw .checkpointInvalid
  else if maximumBytes < (summaryText c checkpointId).utf8ByteSize ∨
      texts.sensitiveText (summaryText c checkpointId) then throw .checkpointInvalid
  else pure (summaryText c checkpointId)

/-! ## Evidence on a branch -/

/-- `claims`: the compaction entries with the id of the checkpoint. -/
def claims (checkpointId : String) (entries : List CompactionEntry) : List CompactionEntry :=
  entries.filter fun entry => entry.details.any fun details => details.checkpointId = checkpointId

/-- The entry was written by the hook, and stores the payload under the id with
its rendered summary. -/
def stores (texts : Texts) (maximumBytes : Nat) (checkpointId : String)
    (identity : CheckpointIdentity) (payload : CheckpointV1) (entry : CompactionEntry) : Bool :=
  match entry.details with
  | none => false
  | some details =>
    entry.fromHook && details.version = 1 && details.checkpointId = checkpointId &&
      match validateCheckpoint texts details.checkpoint identity maximumBytes with
      | .error _ => false
      | .ok restored =>
        match renderCheckpointSummary texts restored checkpointId identity maximumBytes with
        | .error _ => false
        | .ok summary => restored = payload && entry.summary = summary

/-- Exactly one compaction entry has the id of the checkpoint, with the payload
and its rendered summary. -/
structure Evidence (texts : Texts) (maximumBytes : Nat) (checkpointId entryId : String)
    (payload : CheckpointV1) (entries : List CompactionEntry) (entry : CompactionEntry) : Prop where
  only : claims checkpointId entries = [entry]
  named : entry.id = entryId
  hooked : entry.fromHook = true
  stored : entry.details = some ⟨1, checkpointId, some payload⟩
  summary : renderCheckpointSummary texts payload checkpointId (checkpointIdentity payload)
    maximumBytes = .ok entry.summary

theorem evidence_of_stores {texts : Texts} {maximumBytes : Nat} {checkpointId : String}
    {identity : CheckpointIdentity} {payload : CheckpointV1} {entries : List CompactionEntry}
    {entry : CompactionEntry} (honly : claims checkpointId entries = [entry])
    (h : stores texts maximumBytes checkpointId identity payload entry = true) :
    Evidence texts maximumBytes checkpointId entry.id payload entries entry := by
  unfold stores at h
  split at h
  · cases h
  · next details hdetails =>
    simp only [Bool.and_eq_true, decide_eq_true_eq] at h
    obtain ⟨⟨⟨hhook, hversion⟩, hid⟩, hstored⟩ := h
    split at hstored
    · cases hstored
    · next restored hrestored =>
      split at hstored
      · cases hstored
      · next summary hsummary =>
        simp only [Bool.and_eq_true, decide_eq_true_eq] at hstored
        obtain ⟨rfl, hsame⟩ := hstored
        obtain ⟨hvalue, hidentity⟩ := validateCheckpoint_ok hrestored
        refine ⟨honly, rfl, hhook, ?_, ?_⟩
        · rw [hdetails, ← hversion, ← hid, ← hvalue]
        · rw [hidentity, hsummary, hsame]

end WhatsAppMcp.Controller.Compaction
