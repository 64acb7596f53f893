import WhatsAppMcp.Controller.Redis.Steps

/-!
# The checkpoint and repair operations of the repository

`redis/repository.ts` checks its arguments before it calls a script, and two of
its operations read the checkpoint record first and build the record to write
from what they have read.  Each definition below is such an operation after its
read: the script call that it makes, or `none` where it refuses.

Between the read and the call any other client may run, so the record that was
read is an argument and need not be the one in the store.  The digest of a
legacy repair is SHA-256 of a canonical text and stays a parameter.
-/

namespace WhatsAppMcp.Controller

variable {Fp : Type} [DecidableEq Fp]

/-! ## The records that the repository builds -/

omit [DecidableEq Fp] in
/-- The record that `transition` writes: `{ ...current, phase, compactionEntryId }`. -/
def CheckpointRecord.advance (current : CheckpointRecord Fp) (phase : CheckpointPhase)
    (compactionEntryId : String) : CheckpointRecord Fp :=
  { current with phase := phase, compactionEntryId := some compactionEntryId }

omit [DecidableEq Fp] in
/-- The record that `abortCompactionRepair` writes: `{ ...current, phase: 'aborted' }`. -/
def CheckpointRecord.abort (current : CheckpointRecord Fp) : CheckpointRecord Fp :=
  { current with phase := .aborted }

/-- The recovery binding names the work, as `prepare` and `abortCompactionRepair`
check it. -/
def CheckpointRecovery.Names (r : CheckpointRecovery Fp) (fingerprint : NotificationV2 → Fp)
    (work : ClaimedWork) : Prop :=
  r.eventId = work.event.eventId ∧ r.eventFingerprint = fingerprint work.event ∧
    r.streamId = work.streamId

instance (r : CheckpointRecovery Fp) (fingerprint : NotificationV2 → Fp) (work : ClaimedWork) :
    Decidable (r.Names fingerprint work) :=
  inferInstanceAs (Decidable (_ ∧ _ ∧ _))

end WhatsAppMcp.Controller

namespace WhatsAppMcp.Controller.Redis

variable {Fp : Type} [DecidableEq Fp]

/-! ## Checkpoints -/

omit [DecidableEq Fp] in
/-- `argsFor`. -/
def argsFor (fingerprint : NotificationV2 → Fp) (work : ClaimedWork) : WorkArgs Fp :=
  ⟨work.ownership.app.owner, work.ownership.app.epoch, work.ownership.chat.owner,
    work.ownership.chat.epoch, work.event.eventId, work.streamId, fingerprint work.event⟩

/-- `checkpoints.prepare`. -/
def checkpointsPrepare (fingerprint : NotificationV2 → Fp) (work : ClaimedWork)
    (r : CheckpointRecord Fp) : Option (Op Fp) :=
  match r.recovery with
  | none => none
  | some recovery =>
    if r.phase ≠ .prepared ∨ r.compactionEntryId.isSome ∨
        r.checkpoint.canonicalChatId ≠ work.event.canonicalChatJid ∨
        r.checkpoint.lastCompletedSequence ≠ work.event.chatSequence - 1 then none
    else if recovery.version ≠ 1 ∨ ¬ recovery.Names fingerprint work ∨
        recovery.session.canonicalChatId ≠ work.event.canonicalChatJid then none
    else some (.checkpointPrepare (argsFor fingerprint work) r recovery.session)

omit [DecidableEq Fp] in
/-- `checkpoints.transition`, which has read `current`. -/
def checkpointsTransition (fingerprint : NotificationV2 → Fp) (work : ClaimedWork)
    (checkpointId : String) (phase : CheckpointPhase) (compactionEntryId : String)
    (current : CheckpointRecord Fp) : Option (Op Fp) :=
  if phase ≠ .compacted ∧ phase ≠ .restored then none
  else some (.checkpointTransition (argsFor fingerprint work) checkpointId phase compactionEntryId
    current (current.advance phase compactionEntryId))

/-! ## Repairs -/

/-- `CompactionRepairClaim`. -/
structure CompactionRepairClaim (Fp : Type) where
  work : ClaimedWork
  binding : SessionBinding
  checkpoint : CheckpointRecord Fp
  legacyIntentDigest : Option String

/-- `legacyRepairDigest`. -/
abbrev LegacyRepairDigest (Fp : Type) :=
  NotificationV2 → StreamId → SessionBinding → CheckpointRecord Fp → SessionFileGeneration → String

/-- The file generation is the one of the recovery binding, or the one of the
digest that the operator gave. -/
def CompactionRepairClaim.Proved (claim : CompactionRepairClaim Fp)
    (fingerprint : NotificationV2 → Fp) (digest : LegacyRepairDigest Fp)
    (generation : SessionFileGeneration) : Prop :=
  (∀ recovery ∈ claim.checkpoint.recovery, recovery.Names fingerprint claim.work ∧
      recovery.session = claim.binding ∧ recovery.generation = generation) ∧
    (claim.checkpoint.recovery = none → claim.legacyIntentDigest = some
      (digest claim.work.event claim.work.streamId claim.binding claim.checkpoint generation))

instance (claim : CompactionRepairClaim Fp) (fingerprint : NotificationV2 → Fp)
    (digest : LegacyRepairDigest Fp) (generation : SessionFileGeneration) :
    Decidable (claim.Proved fingerprint digest generation) :=
  inferInstanceAs (Decidable ((∀ recovery ∈ claim.checkpoint.recovery, _) ∧ _))

/-- `abortCompactionRepair`, which has read `current`. -/
def abortCompactionRepair (fingerprint : NotificationV2 → Fp) (digest : LegacyRepairDigest Fp)
    (claim : CompactionRepairClaim Fp) (generation : SessionFileGeneration)
    (current : CheckpointRecord Fp) : Option (Op Fp) :=
  if claim.checkpoint.phase ≠ .prepared ∨
      claim.binding.canonicalChatId ≠ claim.work.event.canonicalChatJid then none
  else if ¬ claim.Proved fingerprint digest generation then none
  else if current.phase ≠ .prepared ∨ current ≠ claim.checkpoint then none
  else some (.checkpointAbort (argsFor fingerprint claim.work) claim.binding current.checkpointId
    current current.abort (claim.legacyIntentDigest.getD ""))

end WhatsAppMcp.Controller.Redis
