import WhatsAppMcp.Controller.Compaction.Checkpoint
import WhatsAppMcp.Controller.Pi.SessionFile

/-!
# Records of a session file, from JSON

The records that a session file carries besides bindings and markers: checkpoints in the
details of a compaction, and the records of the mutation journal.  A value that the schema
of a record rejects is `none`.

`compactionEntry` is what `session-host.ts` reads of an entry of a branch.
-/

namespace WhatsAppMcp.Controller.Compaction

open Controller.Pi (Json Fields textOf exactKeys fingerprintSchema checkedBinding)

/-! ## Checkpoints -/

/-- `checked(OpaqueIdSchema, value, …)`. -/
def checkedOpaqueId (value : Option Json) : Option String :=
  (value.bind Json.string?).filter Bridge.isOpaqueId

/-- `VersionSchema`. -/
def versionSchema (text : String) : Bool :=
  1 ≤ text.length && text.length ≤ 64 &&
    text.toList.all fun c => c.isAlphanum || c = '.' || c = '_' || c = '-'

/-- A field of `notes()`. -/
def notesOf (e : Fields) (key : String) : Option (List String) := do
  let items ← (e.lookup key).bind Json.array?
  let texts ← items.mapM Json.string?
  if texts.length ≤ 64 && texts.all fun t => 1 ≤ t.length && t.length ≤ 2048 then some texts else none

/-- One element of `confirmedToolOutcomes`. -/
def checkedOutcome (value : Json) : Option ToolOutcome := do
  let e ← value.object?
  let attemptId ← textOf e "attemptId"
  let tool ← textOf e "tool"
  let destination ← textOf e "destination"
  let messageId ← textOf e "messageId"
  if exactKeys e ["attemptId", "tool", "destination", "messageId"] && Bridge.isOpaqueId attemptId &&
      mutationToolSchema tool && chatJidSchema destination && messageIdSchema messageId then
    some ⟨attemptId, tool, destination, messageId⟩
  else none

/-- `checked(CheckpointV1Schema, value, …)`. -/
def checkedCheckpoint (value : Option Json) : Option CheckpointV1 := do
  let e ← value.bind Json.object?
  let version ← (e.lookup "version").bind Json.nat?
  let canonicalChatId ← textOf e "canonicalChatId"
  let lastCompletedSequence ← (e.lookup "lastCompletedSequence").bind Json.nat?
  let policyVersion ← textOf e "policyVersion"
  let templateVersion ← textOf e "templateVersion"
  let createdAt ← textOf e "createdAt"
  let goals ← notesOf e "goals"
  let decisions ← notesOf e "decisions"
  let constraints ← notesOf e "constraints"
  let verifiedFacts ← notesOf e "verifiedFacts"
  let pendingWork ← notesOf e "pendingWork"
  let approvalBoundaries ← notesOf e "approvalBoundaries"
  let nextSteps ← notesOf e "nextSteps"
  let items ← (e.lookup "confirmedToolOutcomes").bind Json.array?
  let outcomes ← items.mapM checkedOutcome
  if exactKeys e ["version", "canonicalChatId", "lastCompletedSequence", "policyVersion",
        "templateVersion", "createdAt", "goals", "decisions", "constraints", "verifiedFacts",
        "pendingWork", "approvalBoundaries", "nextSteps", "confirmedToolOutcomes"] &&
      version = 1 && chatJidSchema canonicalChatId &&
      lastCompletedSequence ≤ Controller.maxSafeInteger && versionSchema policyVersion &&
      versionSchema templateVersion && timestampSchema createdAt && outcomes.length ≤ 256 then
    some { canonicalChatId, lastCompletedSequence, policyVersion, templateVersion, createdAt, goals,
           decisions, constraints, verifiedFacts, pendingWork, approvalBoundaries, nextSteps,
           confirmedToolOutcomes := outcomes }
  else none

/-! ## The journal -/

/-- `checked(FenceSchema, value, …)`. -/
def checkedFence (value : Option Json) : Option Fence := do
  let e ← value.bind Json.object?
  let owner ← textOf e "owner"
  let epoch ← textOf e "epoch"
  let expiresAtMs ← (e.lookup "expiresAtMs").bind Json.nat?
  if exactKeys e ["owner", "epoch", "expiresAtMs"] && fenceSchema ⟨owner, epoch, expiresAtMs⟩ then
    some ⟨owner, epoch, expiresAtMs⟩
  else none

/-- `checked(OwnershipSchema, value, …)`. -/
def checkedOwnership (value : Option Json) : Option Ownership := do
  let e ← value.bind Json.object?
  let app ← checkedFence (e.lookup "app")
  let chat ← checkedFence (e.lookup "chat")
  if exactKeys e ["app", "chat"] then some ⟨app, chat⟩ else none

/-- `mutationFields`. -/
def mutationFields : List String :=
  ["version", "attemptId", "eventId", "canonicalChatId", "toolCallId", "tool", "destination",
    "startedAt", "ownership", "status"]

/-- The fields that every state of an attempt has, as the state of an attempt that began. -/
def checkedAttempt (e : Fields) : Option MutationState := do
  let eventId ← textOf e "eventId"
  let version ← (e.lookup "version").bind Json.nat?
  let attemptId ← textOf e "attemptId"
  let canonicalChatId ← textOf e "canonicalChatId"
  let toolCallId ← textOf e "toolCallId"
  let tool ← textOf e "tool"
  let destination ← textOf e "destination"
  let startedAt ← textOf e "startedAt"
  let ownership ← checkedOwnership (e.lookup "ownership")
  let attempt : MutationState :=
    { attemptId, eventId, canonicalChatId, toolCallId, tool, destination, startedAt, ownership
      status := .attempting, messageId := none, finishedAt := none, reason := none }
  if version = 1 && mutationAttemptSchema attempt then some attempt else none

/-- `checked(MutationStateSchema, value, …)`. -/
def checkedMutation (value : Option Json) : Option MutationState := do
  let e ← value.bind Json.object?
  let attempt ← checkedAttempt e
  let status ← textOf e "status"
  if status = "attempting" then
    if exactKeys e mutationFields then some attempt else none
  else if status = "confirmed" then do
    let messageId ← textOf e "messageId"
    let finishedAt ← textOf e "finishedAt"
    if exactKeys e (mutationFields ++ ["messageId", "finishedAt"]) && messageIdSchema messageId &&
        timestampSchema finishedAt then
      some (attempt.settle (.confirmed messageId finishedAt))
    else none
  else if status = "uncertain" then
    if exactKeys e (mutationFields ++ ["reason"]) && textOf e "reason" = some "mutation_uncertain" then
      some (attempt.settle .uncertain)
    else none
  else none

/-- `checked(JournalEnvelopeSchema, value, …)`. -/
def checkedEnvelope (value : Option Json) : Option (JournalEnvelope String) := do
  let e ← value.bind Json.object?
  let version ← (e.lookup "version").bind Json.nat?
  let eventFingerprint ← textOf e "eventFingerprint"
  let session ← checkedBinding (e.lookup "session")
  let state ← checkedMutation (e.lookup "state")
  if exactKeys e ["version", "eventFingerprint", "session", "state"] && version = 1 &&
      fingerprintSchema eventFingerprint then some ⟨eventFingerprint, session, state⟩
  else none

/-! ## Branches -/

/-- The details of a compaction that name a checkpoint. -/
def storedDetails (value : Option Json) : Option StoredCheckpoint := do
  let details ← value.bind Json.object?
  let checkpointId ← textOf details "checkpointId"
  some ⟨((details.lookup "version").bind Json.nat?).getD 0, checkpointId,
    checkedCheckpoint (details.lookup "checkpoint")⟩

/-- A compaction entry of a branch.  A member that is no string is the empty one, which
nothing that is compared with it is. -/
def compactionEntry (e : Fields) : Option CompactionEntry :=
  if textOf e "type" = some "compaction" then
    some {
      id := (textOf e "id").getD ""
      summary := (textOf e "summary").getD ""
      fromHook := (e.lookup "fromHook").any (Json.isBool true)
      details := storedDetails (e.lookup "details") }
  else none

/-- A branch of the file, as the session library gives it. -/
def compactionEntries (branch : List Fields) : List CompactionEntry := branch.filterMap compactionEntry

/-! ## What a record has of its value -/

theorem object_of_bind {value : Option Json} {e : Fields} (h : value.bind Json.object? = some e) :
    value = some (.object e) := by
  obtain ⟨v, rfl, hv⟩ := Option.bind_eq_some_iff.mp h
  cases v with
  | object fields =>
    cases hv
    rfl
  | null => cases hv
  | bool value => cases hv
  | number literal => cases hv
  | string text => cases hv
  | array items => cases hv

theorem checkedOpaqueId_text {e : Fields} {key id : String} (h : checkedOpaqueId (e.lookup key) = some id) :
    textOf e key = some id := by
  unfold checkedOpaqueId at h
  exact (Option.filter_eq_some_iff.mp h).1

/-- The marker is of the event that the value names. -/
theorem checkedMarker_eventId {e : Fields} {marker : Controller.Pi.StoredMarker}
    (h : Controller.Pi.checkedMarker (some (.object e)) = some marker) :
    textOf e "eventId" = some marker.eventId := by
  obtain ⟨version, -, h⟩ := Option.bind_eq_some_iff.mp h
  obtain ⟨eventId, heventId, h⟩ := Option.bind_eq_some_iff.mp h
  obtain ⟨fingerprint, -, h⟩ := Option.bind_eq_some_iff.mp h
  obtain ⟨chat, -, h⟩ := Option.bind_eq_some_iff.mp h
  obtain ⟨sequence, -, h⟩ := Option.bind_eq_some_iff.mp h
  obtain ⟨completion, -, h⟩ := Option.bind_eq_some_iff.mp h
  obtain ⟨completedAt, -, h⟩ := Option.bind_eq_some_iff.mp h
  obtain ⟨items, -, h⟩ := Option.bind_eq_some_iff.mp h
  obtain ⟨sends, -, h⟩ := Option.bind_eq_some_iff.mp h
  split at h
  · cases h
    exact heventId
  · cases h

theorem checkedAttempt_eventId {e : Fields} {attempt : MutationState} (h : checkedAttempt e = some attempt) :
    textOf e "eventId" = some attempt.eventId := by
  obtain ⟨eventId, heventId, h⟩ := Option.bind_eq_some_iff.mp h
  obtain ⟨version, -, h⟩ := Option.bind_eq_some_iff.mp h
  obtain ⟨attemptId, -, h⟩ := Option.bind_eq_some_iff.mp h
  obtain ⟨chat, -, h⟩ := Option.bind_eq_some_iff.mp h
  obtain ⟨toolCallId, -, h⟩ := Option.bind_eq_some_iff.mp h
  obtain ⟨tool, -, h⟩ := Option.bind_eq_some_iff.mp h
  obtain ⟨destination, -, h⟩ := Option.bind_eq_some_iff.mp h
  obtain ⟨startedAt, -, h⟩ := Option.bind_eq_some_iff.mp h
  obtain ⟨ownership, -, h⟩ := Option.bind_eq_some_iff.mp h
  dsimp only at h
  split at h
  · cases h
    exact heventId
  · cases h

/-- The state is of the event that the value names, whatever its status. -/
theorem checkedMutation_eventId {e : Fields} {state : MutationState}
    (h : checkedMutation (some (.object e)) = some state) : textOf e "eventId" = some state.eventId := by
  obtain ⟨attempt, hattempt, h⟩ := Option.bind_eq_some_iff.mp h
  obtain ⟨status, -, h⟩ := Option.bind_eq_some_iff.mp h
  rw [checkedAttempt_eventId hattempt]
  split at h
  · split at h <;> cases h
    rfl
  split at h
  · obtain ⟨messageId, -, h⟩ := Option.bind_eq_some_iff.mp h
    obtain ⟨finishedAt, -, h⟩ := Option.bind_eq_some_iff.mp h
    split at h <;> cases h
    rfl
  split at h
  · split at h <;> cases h
    rfl
  · cases h

/-- The envelope has the state that the value has. -/
theorem checkedEnvelope_state {e : Fields} {journal : JournalEnvelope String}
    (h : checkedEnvelope (some (.object e)) = some journal) :
    checkedMutation (e.lookup "state") = some journal.state := by
  obtain ⟨version, -, h⟩ := Option.bind_eq_some_iff.mp h
  obtain ⟨fingerprint, -, h⟩ := Option.bind_eq_some_iff.mp h
  obtain ⟨session, -, h⟩ := Option.bind_eq_some_iff.mp h
  obtain ⟨state, hstate, h⟩ := Option.bind_eq_some_iff.mp h
  split at h
  · cases h
    exact hstate
  · cases h

end WhatsAppMcp.Controller.Compaction
