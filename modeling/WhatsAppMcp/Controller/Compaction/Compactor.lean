import WhatsAppMcp.Lib.Conversations
import WhatsAppMcp.Controller.Redis.Checkpoints
import WhatsAppMcp.Controller.Pi.OwnMessages
import WhatsAppMcp.Controller.Compaction.Checkpoint

/-!
# The compactor

`prepare` runs before the prompt of an event.  It first brings the latest
checkpoint of the chat to rest, then decides whether the context is to be
compacted, and if so has the model write a new checkpoint and takes it through
its phases.

The file follows the three parts of the source: the extension that arms the SDK
(`run`), the session (`reconcileCheckpoint`, `history`, `compact`) and the
compactor (`prepare`).  All of them are programs of queries.  The model, the SDK,
the file system and the clock answer what they like; only the store has a
meaning.
-/

namespace WhatsAppMcp.Controller.Compaction

open Calls Redis

variable {Fp : Type}

/-! ## What is asked -/

/-- Queries that have no value. -/
inductive Effect where
  | requireAttached
  | requireRuntime
  | syncSession
  | syncDirectory
  | evidence
  | waitForIdle
  deriving DecidableEq, Repr

/-- `status` of a usage decision. -/
inductive UsageStatus where
  | ok
  | compact
  | unknown
  deriving DecidableEq, Repr

/-- What `open` finds: whether the session is the one asked for, and the
compaction entries of its active branch. -/
structure Reopened where
  same : Bool
  entries : List CompactionEntry

/-- What the extension reads of the session before it asks the model, and again
afterwards. -/
structure Survey (Fp : Type) where
  /-- `compactionPreflight()`, where it gives a token. -/
  preflight : Option String
  branch : List (Entry Fp)
  /-- `branchGeneration`. -/
  generation : String
  firstKeptEntryId : Option String
  tokensBefore : Option Nat
  hasMessages : Bool
  transcript : String
  hasModel : Bool

/-- `CompactionResult`. -/
structure CompactionResult where
  summary : String
  firstKeptEntryId : String
  tokensBefore : Nat
  usage : String
  details : Option StoredCheckpoint
  deriving DecidableEq

/-- `SessionCompactEvent`, with its entry. -/
structure CompactEvent where
  fromExtension : Bool
  manual : Bool
  willRetry : Bool
  fromHook : Bool
  entryId : String
  entry : CompactionResult

/-- What the hooks and the SDK have reported of a compaction. -/
structure Compacted where
  failed : Bool
  event : Option CompactEvent
  returned : Option CompactionResult

/-- A query of the compactor. -/
inductive Ask (Fp : Type)
  | current
  | script (op : Op Fp)
  | effect (e : Effect)
  /-- Neither busy nor disposed, and the runtime is idle. -/
  | idle
  | reopen
  | getBranch
  | decide
  | isFresh
  | template (path : String)
  | now
  | survey
  | complete (request : String)
  | randomBytes
  | generation
  | compact (checkpointId : String) (replacement : CompactionResult)

/-- What a query comes back with. -/
abbrev Ask.Value : Ask Fp → Type
  | .current => Unit
  | .script _ => Reply Fp
  | .effect _ => Unit
  | .idle => Bool
  | .reopen => Reopened
  | .getBranch => List (Entry Fp)
  | .decide => UsageStatus
  | .isFresh => Bool
  | .template _ => String
  | .now => String
  | .survey => Survey Fp
  | .complete _ => String × String
  | .randomBytes => String
  | .generation => SessionFileGeneration
  | .compact _ _ => Compacted

/-- The value of a query, or the code of the error that it throws. -/
abbrev Ask.Answer (q : Ask Fp) : Type := Except ErrorClass q.Value

/-- A program of the compactor. -/
abbrev Async (Fp α : Type) := Prog (Ask Fp) Ask.Answer ErrorClass α

/-- `await` of a query. -/
def ask (q : Ask Fp) : Async Fp q.Value :=
  Prog.query q >>= fun
    | .ok value => pure value
    | .error code => throw code

/-- `context.current()`. -/
def current : Async Fp Unit := ask .current

/-- What the compactor is configured with. -/
structure Settings where
  texts : Texts
  checkpointMaxBytes : Nat
  policyVersion : String
  templateVersion : String
  preCompactionPath : String
  compactionSummaryPath : String

/-- The work of a turn in its session. -/
structure Turned (Fp : Type) where
  fingerprint : NotificationV2 → Fp
  work : ClaimedWork
  binding : SessionBinding

/-- The chat of the work. -/
abbrev Turned.chat (turn : Turned Fp) : String := turn.work.event.canonicalChatJid

/-! ## The repository -/

/-- `checkpoints.latest`. -/
def latest : Async Fp (Option (CheckpointRecord Fp)) := do
  match ← ask (.script .checkpointLatest) with
  | .checkpoint record => pure record
  | _ => throw .checkpointInvalid

variable [DecidableEq Fp]

/-- `checkpoints.transition`. -/
def transition (turn : Turned Fp) (checkpointId : String) (phase : CheckpointPhase)
    (compactionEntryId : String) : Async Fp Bool := do
  match ← latest with
  | none => pure false
  | some record =>
    match checkpointsTransition turn.fingerprint turn.work checkpointId phase compactionEntryId
        record with
    | none => throw .checkpointInvalid
    | some op => pure ((← ask (.script op)) = .ok)

/-- `checkpoints.prepare`. -/
def prepareCheckpoint (turn : Turned Fp) (record : CheckpointRecord Fp) : Async Fp Bool :=
  match checkpointsPrepare turn.fingerprint turn.work record with
  | none => pure false
  | some op => do pure ((← ask (.script op)) = .ok)

/-! ## The extension -/

/-- `assertSupportedEntries`. -/
def assertSupportedEntries (entries : List (Entry Fp)) : Bool :=
  entries.all fun
    | .other type => supported.contains type
    | _ => true

/-- What `run` returns, but for its two functions. -/
structure Armed where
  entryId : String
  checkpointId : String
  checkpoint : CheckpointV1

/-- The hooks and the SDK have reported exactly the replacement. -/
def reported (result : CompactionResult) (compacted : Compacted) : Option String :=
  match compacted.event, compacted.returned with
  | some event, some returned =>
    if compacted.failed ∨ event.fromExtension = false ∨ event.manual = false ∨ event.willRetry ∨
        event.fromHook = false ∨ event.entryId.length < 1 ∨ 128 < event.entryId.length ∨
        event.entry.summary ≠ result.summary ∨ returned.summary ≠ event.entry.summary ∨
        returned.firstKeptEntryId ≠ event.entry.firstKeptEntryId ∨
        returned.tokensBefore ≠ event.entry.tokensBefore ∨ returned.usage ≠ event.entry.usage ∨
        event.entry.details ≠ result.details ∨ returned.details ≠ event.entry.details then none
    else some event.entryId
  | _, _ => none

/-- The text that the model is asked with. -/
def requestText (preparation summary seed transcript : String) : String :=
  s!"{preparation}\n{summary}\nReturn one JSON CheckpointV1 object only. Fixed fields and confirmedToolOutcomes must exactly equal:\n{seed}\nFinalized conversation:\n{transcript}"

/-- `text.trim()` is empty. -/
def blank (text : String) : Bool :=
  text.toList.all fun c =>
    c.toNat ∈ [0x9, 0xA, 0xB, 0xC, 0xD, 0x20, 0xA0, 0x1680, 0x2028, 0x2029, 0x202F, 0x205F, 0x3000,
      0xFEFF] || 0x2000 ≤ c.toNat && c.toNat ≤ 0x200A

/-- A checkpoint that the model has written, with what the replacement needs. -/
structure Written where
  checkpoint : CheckpointV1
  firstKeptEntryId : String
  tokensBefore : Nat
  usage : String

/-- `result`, the replacement that the SDK is to append. -/
def Written.result (written : Written) (checkpointId summary : String) : CompactionResult :=
  ⟨summary, written.firstKeptEntryId, written.tokensBefore, written.usage,
    some ⟨1, checkpointId, some written.checkpoint⟩⟩

omit [DecidableEq Fp] in
/-- `record`, the checkpoint that the store is to hold. -/
def Written.record (written : Written) (turn : Turned Fp) (checkpointId : String)
    (session : SessionBinding) (generation : SessionFileGeneration) : CheckpointRecord Fp :=
  ⟨checkpointId, written.checkpoint,
    some ⟨1, turn.work.event.eventId, turn.fingerprint turn.work.event, turn.work.streamId, session,
      generation⟩, .prepared, none⟩

omit [DecidableEq Fp] in
/-- The reading of the model's answer. -/
def readAnswer (settings : Settings) (seed : CheckpointV1) (text : String) :
    Except ErrorClass CheckpointV1 :=
  if blank text ∨ settings.checkpointMaxBytes < text.utf8ByteSize then .error .compactionFailed
  else
    match settings.texts.parse text with
    | none => .error .compactionFailed
    | some parsed => do
      let checkpoint ← validateCheckpoint settings.texts (some parsed) (checkpointIdentity seed)
        settings.checkpointMaxBytes
      if checkpoint.confirmedToolOutcomes ≠ seed.confirmedToolOutcomes then throw .compactionFailed
      else pure checkpoint

omit [DecidableEq Fp] in
/-- `run` up to the answer of the model. -/
def askModel (settings : Settings) (seed : CheckpointV1) (preparation summary : String) :
    Async Fp Written := do
  current
  let initial ← ask .survey
  if initial.preflight = none then throw .compactionCapacity
  else if assertSupportedEntries initial.branch = false then throw .checkpointInvalid
  else
    match initial.firstKeptEntryId, initial.tokensBefore with
    | some firstKeptEntryId, some tokensBefore =>
      if maxSafeInteger < tokensBefore ∨ initial.hasMessages = false then throw .compactionFailed
      else if settings.texts.schema seed = false then throw .checkpointInvalid
      else if settings.checkpointMaxBytes * 8 < (requestText preparation summary
          (settings.texts.stringify seed) initial.transcript).utf8ByteSize then
        throw .compactionFailed
      else do
        current
        if initial.hasModel = false then throw .compactionFailed
        else do
          let (text, usage) ← ask (.complete (requestText preparation summary
            (settings.texts.stringify seed) initial.transcript))
          current
          let final ← ask .survey
          if final.preflight = none ∨ final.preflight ≠ initial.preflight ∨
              final.generation ≠ initial.generation then throw .compactionCapacity
          else
            match readAnswer settings seed text with
            | .error code => throw code
            | .ok checkpoint => pure ⟨checkpoint, firstKeptEntryId, tokensBefore, usage⟩
    | _, _ => throw .compactionFailed

/-- `run`. -/
def run (settings : Settings) (turn : Turned Fp) (session : SessionBinding) (seed : CheckpointV1)
    (preparation summary : String) : Async Fp Armed := do
  ask (.effect .requireRuntime)
  let checkpointId ← ask .randomBytes
  let written ← askModel settings seed preparation summary
  match renderCheckpointSummary settings.texts written.checkpoint checkpointId
      (checkpointIdentity seed) settings.checkpointMaxBytes with
  | .error code => throw code
  | .ok expectedSummary =>
    current
    let generation ← ask .generation
    if (← prepareCheckpoint turn (written.record turn checkpointId session generation)) = false then
      throw .compactionFailed
    else do
      current
      let compacted ← ask (.compact checkpointId (written.result checkpointId expectedSummary))
      current
      match reported (written.result checkpointId expectedSummary) compacted with
      | none => throw .compactionFailed
      | some entryId => pure ⟨entryId, checkpointId, written.checkpoint⟩

/-- `compacted`. -/
def Armed.compacted (armed : Armed) (turn : Turned Fp) : Async Fp Unit := do
  current
  if (← transition turn armed.checkpointId .compacted armed.entryId) = false then
    throw .compactionFailed
  else pure ()

omit [DecidableEq Fp] in
/-- The record has the phase, the id, the compaction entry and the payload. -/
def CheckpointRecord.is (record : CheckpointRecord Fp) (phase : CheckpointPhase)
    (checkpointId entryId : String) (checkpoint : CheckpointV1) : Bool :=
  record.phase = phase && record.checkpointId = checkpointId &&
    record.compactionEntryId = some entryId && record.checkpoint = checkpoint

/-- `restored`. -/
def Armed.restored (armed : Armed) (turn : Turned Fp) : Async Fp Unit := do
  current
  match ← latest with
  | none => throw .restoreFailed
  | some record =>
    if CheckpointRecord.is record .compacted armed.checkpointId armed.entryId armed.checkpoint = false
    then throw .restoreFailed
    else do
      current
      if (← transition turn armed.checkpointId .restored armed.entryId) = false then
        throw .restoreFailed
      else pure ()

/-! ## The session -/

omit [DecidableEq Fp] in
/-- `reconcileCheckpoint`, once the session is reopened. -/
def reconciled (settings : Settings) (record : CheckpointRecord Fp) (reopened : Reopened) :
    Except ErrorClass (String × CheckpointV1) :=
  if reopened.same = false then .error .restoreFailed
  else
    match claims record.checkpointId reopened.entries with
    | [entry] =>
      if entry.id.length < 1 ∨ 128 < entry.id.length then .error .restoreFailed
      else if (record.phase = .compacted ∨ record.phase = .restored) ∧
          record.compactionEntryId ≠ some entry.id then .error .restoreFailed
      else if stores settings.texts settings.checkpointMaxBytes record.checkpointId
          (checkpointIdentity record.checkpoint) record.checkpoint entry = false then
        .error .restoreFailed
      else .ok (entry.id, record.checkpoint)
    | _ => .error .restoreFailed

omit [DecidableEq Fp] in
/-- `reconcileCheckpoint`. -/
def reconcileCheckpoint (settings : Settings) (turn : Turned Fp) (record : CheckpointRecord Fp) :
    Async Fp (String × CheckpointV1) := do
  ask (.effect .requireAttached)
  if (← ask .idle) = false ∨ record.checkpoint.canonicalChatId ≠ turn.binding.canonicalChatId then
    throw .restoreFailed
  else do
    current
    ask (.effect .syncSession)
    current
    ask (.effect .syncDirectory)
    current
    let reopened ← ask .reopen
    match reconciled settings record reopened with
    | .error code => throw code
    | .ok found => do
      ask (.effect .evidence)
      current
      pure found

/-- `history`. -/
def history (turn : Turned Fp) (lastCompletedSequence : Nat)
    (currentCheckpoint : Option CheckpointV1) : Async Fp (List ToolOutcome) := do
  ask (.effect .requireAttached)
  current
  let entries ← ask .getBranch
  current
  match confirmedHistory entries turn.binding lastCompletedSequence currentCheckpoint with
  | .error code => throw code
  | .ok outcomes => pure outcomes

omit [DecidableEq Fp] in
/-- The check of `compact`, once the session is reopened. -/
def appended (settings : Settings) (seed : CheckpointV1) (armed : Armed) (reopened : Reopened) :
    Bool :=
  reopened.same &&
    match claims armed.checkpointId reopened.entries with
    | [entry] => entry.id = armed.entryId && stores settings.texts settings.checkpointMaxBytes
        armed.checkpointId (checkpointIdentity seed) armed.checkpoint entry
    | _ => false

/-- `options.compact`. -/
def hostCompact (settings : Settings) (turn : Turned Fp) (instructions : String)
    (seed : CheckpointV1) : Async Fp Armed := do
  current
  match ← ask (.script .read) with
  | .chat _ (some session) _ _ => run settings turn session seed instructions ""
  | _ => throw .compactionFailed

/-- `compact`. -/
def compact (settings : Settings) (turn : Turned Fp) (instructions : String) (seed : CheckpointV1) :
    Async Fp (String × CheckpointV1) := do
  ask (.effect .requireAttached)
  if (← ask .idle) = false then throw .compactionFailed
  else do
    current
    let armed ← hostCompact settings turn instructions seed
    ask (.effect .waitForIdle)
    current
    current
    ask (.effect .syncSession)
    current
    ask (.effect .syncDirectory)
    current
    armed.compacted turn
    current
    let reopened ← tryCatch (ask .reopen) fun _ => throw .compactionFailed
    if appended settings seed armed reopened = false then throw .compactionFailed
    else do
      current
      armed.restored turn
      current
      ask (.effect .evidence)
      pure (armed.entryId, armed.checkpoint)

/-! ## The compactor -/

/-- The transitions that bring a reconciled checkpoint to rest. -/
def settle (turn : Turned Fp) (original : CheckpointRecord Fp) (entryId : String) :
    Async Fp Unit := do
  match original.phase with
  | .prepared =>
    current
    if (← transition turn original.checkpointId .compacted entryId) = false then
      throw .restoreFailed
    else do
      current
      match ← latest with
      | none => throw .restoreFailed
      | some compacted =>
        if CheckpointRecord.is compacted .compacted original.checkpointId entryId
            original.checkpoint = false then throw .restoreFailed
        else do
          current
          if (← transition turn compacted.checkpointId .restored entryId) = false then
            throw .restoreFailed
          else pure ()
  | .compacted =>
    current
    if (← transition turn original.checkpointId .restored entryId) = false then
      throw .restoreFailed
    else pure ()
  | .restored => pure ()
  | .aborted => pure ()

/-- The recovery of the latest checkpoint. -/
def recover (settings : Settings) (turn : Turned Fp) (original : CheckpointRecord Fp) :
    Async Fp (CheckpointRecord Fp) := do
  current
  let (entryId, checkpoint) ← reconcileCheckpoint settings turn original
  if checkpoint ≠ original.checkpoint then throw .restoreFailed
  else do
    settle turn original entryId
    current
    match ← latest with
    | none => throw .restoreFailed
    | some settled =>
      if CheckpointRecord.is settled .restored original.checkpointId entryId checkpoint = false then
        throw .restoreFailed
      else pure settled

/-- `mergeOutcomes`. -/
def mergeOutcomes (historical pending : List ToolOutcome) : Except ErrorClass (List ToolOutcome) := do
  let merged ← (historical ++ pending).foldlM addOutcome ∅
  pure (merged.vals.insertionSort fun a b => a.attemptId ≤ b.attemptId)

omit [DecidableEq Fp] in
/-- `nativeJournal.list`. -/
def listNative (chat : String) : List (JournalRecord Fp) → Except ErrorClass (List MutationState)
  | [] => .ok []
  | .legacy _ :: _ => .error .mutationUncertain
  | .native record :: rest =>
    if Pi.isJournalRecord record chat = false then .error .mutationUncertain
    else do pure (record.state :: (← listNative chat rest))

omit [DecidableEq Fp] in
/-- `seed`. -/
def seedOf (settings : Settings) (turn : Turned Fp) (createdAt : String)
    (outcomes : List ToolOutcome) : CheckpointV1 :=
  ⟨turn.chat, turn.work.event.chatSequence - 1, settings.policyVersion, settings.templateVersion,
    createdAt, [], [], [], [], [], [], [], outcomes⟩

/-- `template`. -/
def template (path : String) : Async Fp String := do
  let value ← tryCatch (ask (.template path)) fun _ => throw .preparationFailed
  if blank value ∨ 65536 < value.utf8ByteSize then throw .preparationFailed else pure value

/-- The `try` block of `prepare`. -/
def compactNow (settings : Settings) (turn : Turned Fp) (seed : CheckpointV1) : Async Fp Bool := do
  current
  let pre ← template settings.preCompactionPath
  current
  let summary ← template settings.compactionSummaryPath
  current
  let (entryId, checkpoint) ← compact settings turn s!"{pre}\n{summary}" seed
  match validateCheckpoint settings.texts (some checkpoint) (checkpointIdentity seed)
      settings.checkpointMaxBytes with
  | .error code => throw code
  | .ok checkpoint =>
    if checkpoint.confirmedToolOutcomes ≠ seed.confirmedToolOutcomes then throw .checkpointInvalid
    else do
      current
      match ← latest with
      | none => throw .restoreFailed
      | some restored =>
        if restored.phase ≠ .restored ∨ restored.compactionEntryId ≠ some entryId ∨
            restored.checkpoint ≠ checkpoint then throw .restoreFailed
        else pure true

omit [DecidableEq Fp] in
/-- `session.isFresh()`, which is asked only where the usage is unknown. -/
def freshIfUnknown (decision : UsageStatus) : Async Fp Bool :=
  if decision = .unknown then ask .isFresh else pure true

/-- `prepare` once the latest checkpoint is at rest: `settled`, if it was not
aborted. -/
def proceed (settings : Settings) (turn : Turned Fp) (settled : Option (CheckpointRecord Fp)) :
    Async Fp Bool := do
  let decision ← ask .decide
  if decision = .ok then pure false
  else if decision = .unknown ∧ settled.isSome then throw .usageUnknown
  else if (← freshIfUnknown decision) = false then throw .usageUnknown
  else do
    current
    match ← ask (.script .read) with
    | .chat cursor session _ _ =>
      if session ≠ some turn.binding ∨ cursor ≠ (turn.work.event.chatSequence - 1).repr then
        throw .checkpointInvalid
      else do
        current
        match ← ask (.script .journalList) with
        | .journal records =>
          match listNative turn.chat records with
          | .error code => throw code
          | .ok pending =>
            if ∃ t ∈ pending, t.status ≠ .confirmed then throw .checkpointInvalid
            else if decision = .unknown then pure true
            else do
              current
              let historical ← history turn (turn.work.event.chatSequence - 1)
                (settled.map CheckpointRecord.checkpoint)
              match mergeOutcomes historical (pending.filterMap outcomeOf) with
              | .error code => throw code
              | .ok outcomes =>
                let createdAt ← ask .now
                if settings.texts.schema (seedOf settings turn createdAt outcomes) = false then
                  throw .checkpointInvalid
                else compactNow settings turn (seedOf settings turn createdAt outcomes)
        | _ => throw .storeUnavailable
    | _ => throw .storeUnavailable

/-- `prepare`: whether the usage must be known after the prompt. -/
def prepare (settings : Settings) (turn : Turned Fp) : Async Fp Bool := do
  current
  match ← latest with
  | none => proceed settings turn none
  | some original =>
    if original.phase = .aborted then proceed settings turn none
    else do
      let settled ← recover settings turn original
      proceed settings turn (some settled)

end WhatsAppMcp.Controller.Compaction
