import WhatsAppMcp.Controller.Redis.Keys
import Mathlib.Data.List.Sort

/-!
# The active branch of a session file

A session file is a tree of entries, and the branch from its root to its leaf is
what the controller reads.  Entries of other extensions and of the agent itself
matter by their type only; the controller writes three kinds of custom entries,
and the compaction entries whose details carry a checkpoint.

`confirmedHistory` reads a branch from front to back and rejects it, always with
`checkpoint_invalid`, where its records are not in the order in which the
controller writes them.
-/

namespace WhatsAppMcp.Controller.Compaction

open Redis (Hash)

variable {Fp : Type}

/-! ## Entries -/

/-- `CompletionMarker`, without the kind and the time of the completion. -/
structure CompletionMarker (Fp : Type) where
  eventId : String
  eventFingerprint : Fp
  canonicalChatId : String
  chatSequence : Nat
  confirmedSends : List ConfirmedSend
  deriving DecidableEq

/-- The details of a compaction entry, where they have the members of a stored
checkpoint.  A payload that `CheckpointV1Schema` rejects is `none`. -/
structure StoredCheckpoint where
  version : Nat
  checkpointId : String
  checkpoint : Option CheckpointV1
  deriving DecidableEq

/-- A compaction entry. -/
structure CompactionEntry where
  id : String
  summary : String
  fromHook : Bool
  details : Option StoredCheckpoint
  deriving DecidableEq

/-- An entry of the branch.  A `custom` entry is one of another extension, or one
of the controller whose data does not pass its schema. -/
inductive Entry (Fp : Type) where
  | other (type : String)
  | compaction (entry : CompactionEntry)
  | custom (customType : String)
  | binding (data : SessionBinding)
  | mutation (record : JournalEnvelope Fp)
  | completion (marker : CompletionMarker Fp)

/-- `supported`, without the two types that are entries of their own. -/
def supported : List String :=
  ["message", "model_change", "thinking_level_change", "context_edit", "branch_summary",
    "custom_message", "label", "session_info", "usage"]

/-- `controllerPrefix`. -/
def controllerPrefix : String := "whatsapp.controller."

/-- The entry is not one of the controller, and of a known type. -/
def Entry.plain : Entry Fp → Bool
  | .other type => supported.contains type
  | .compaction _ => true
  | .custom customType => ! controllerPrefix.toList.isPrefixOf customType.toList
  | _ => false

/-! ## Outcomes -/

/-- `MAX_ENTRIES`. -/
def maxEntries : Nat := 4096

/-- `MAX_OUTCOMES`. -/
def maxOutcomes : Nat := 256

/-- `Number.MAX_SAFE_INTEGER`. -/
def maxSafeInteger : Nat := 9007199254740991

/-- `sameMutation`: equal but for the fields that come with the status. -/
def sameMutation (a b : MutationState) : Bool :=
  { b with
    status := a.status, messageId := a.messageId, finishedAt := a.finishedAt,
    reason := a.reason } = a

/-- The outcome that a confirmed attempt stands for. -/
def outcomeOf (t : MutationState) : Option ToolOutcome :=
  t.messageId.map fun messageId => ⟨t.attemptId, t.tool, t.destination, messageId⟩

/-- `add`. -/
def addOutcome (outcomes : Hash ToolOutcome) (value : ToolOutcome) :
    Except ErrorClass (Hash ToolOutcome) :=
  if ∃ prior ∈ outcomes.lookup value.attemptId, prior ≠ value then .error .checkpointInvalid
  else if maxOutcomes < (outcomes.insert value.attemptId value).keys.length then
    .error .checkpointInvalid
  else .ok (outcomes.insert value.attemptId value)

/-! ## Reading -/

/-- What `confirmedHistory` keeps while it reads. -/
structure Reading (Fp : Type) where
  bound : Bool
  transitions : Hash (JournalEnvelope Fp)
  completedEvents : List String
  outcomes : Hash ToolOutcome

variable [DecidableEq Fp]

/-- The first loop of a completion: the attempts of its event. -/
def settleOutcomes (marker : CompletionMarker Fp) :
    List (JournalEnvelope Fp) → Hash ToolOutcome → Except ErrorClass (Hash ToolOutcome)
  | [], outcomes => .ok outcomes
  | record :: rest, outcomes =>
    if record.state.eventId ≠ marker.eventId then settleOutcomes marker rest outcomes
    else
      match outcomeOf record.state with
      | none => .error .checkpointInvalid
      | some value =>
        if record.eventFingerprint ≠ marker.eventFingerprint ∨
            record.state.status ≠ .confirmed ∨
            ⟨value.destination, value.messageId⟩ ∉ marker.confirmedSends then
          .error .checkpointInvalid
        else do settleOutcomes marker rest (← addOutcome outcomes value)

/-- `matches`: the confirmed attempts of the event that report the send. -/
def matching (marker : CompletionMarker Fp) (send : ConfirmedSend)
    (transitions : Hash (JournalEnvelope Fp)) : List (JournalEnvelope Fp) :=
  transitions.vals.filter fun record =>
    record.state.eventId = marker.eventId ∧ record.state.status = .confirmed ∧
      send.Reports record.state

/-- One round of the loop over the entries. -/
def readEntry (binding : SessionBinding) (lastCompletedSequence : Nat) (rd : Reading Fp) :
    Entry Fp → Except ErrorClass (Reading Fp)
  | .other type =>
    if supported.contains type = false then .error .checkpointInvalid else .ok rd
  | .compaction _ => .ok rd
  | .custom customType =>
    if controllerPrefix.toList.isPrefixOf customType.toList then .error .checkpointInvalid
    else .ok rd
  | .binding data =>
    if rd.bound ∨ data ≠ binding then .error .checkpointInvalid else .ok { rd with bound := true }
  | .mutation record =>
    if rd.bound = false ∨ record.state.shaped = false ∨ record.session ≠ binding ∨
        record.state.canonicalChatId ≠ binding.canonicalChatId ∨
        record.state.eventId ∈ rd.completedEvents then .error .checkpointInvalid
    else
      let next := { rd with transitions := rd.transitions.insert record.state.attemptId record }
      match rd.transitions.lookup record.state.attemptId with
      | none => if record.state.status ≠ .attempting then .error .checkpointInvalid else .ok next
      | some prior =>
        if prior.state.status ≠ .attempting ∨ record.state.status ≠ .confirmed ∨
            prior.eventFingerprint ≠ record.eventFingerprint ∨
            sameMutation prior.state record.state = false then .error .checkpointInvalid
        else .ok next
  | .completion marker =>
    if rd.bound = false ∨ marker.canonicalChatId ≠ binding.canonicalChatId ∨
        lastCompletedSequence < marker.chatSequence ∨ marker.eventId ∈ rd.completedEvents then
      .error .checkpointInvalid
    else do
      let outcomes ← settleOutcomes marker rd.transitions.vals rd.outcomes
      if ∃ send ∈ marker.confirmedSends, (matching marker send rd.transitions).length ≠ 1 then
        .error .checkpointInvalid
      else
        .ok { rd with
          completedEvents := rd.completedEvents ++ [marker.eventId], outcomes := outcomes }

omit [DecidableEq Fp] in
/-- The outcomes of the current checkpoint. -/
def priorOutcomes (binding : SessionBinding) (lastCompletedSequence : Nat) :
    Option CheckpointV1 → Except ErrorClass (Hash ToolOutcome)
  | none => .ok ∅
  | some prior =>
    if prior.canonicalChatId ≠ binding.canonicalChatId ∨
        lastCompletedSequence < prior.lastCompletedSequence then .error .checkpointInvalid
    else prior.confirmedToolOutcomes.foldlM addOutcome ∅

/-- `confirmedHistory`. -/
def confirmedHistory (entries : List (Entry Fp)) (binding : SessionBinding)
    (lastCompletedSequence : Nat) (currentCheckpoint : Option CheckpointV1) :
    Except ErrorClass (List ToolOutcome) :=
  if maxSafeInteger < lastCompletedSequence ∨ maxEntries < entries.length then
    .error .checkpointInvalid
  else do
    let outcomes ← priorOutcomes binding lastCompletedSequence currentCheckpoint
    let rd ← entries.foldlM (readEntry binding lastCompletedSequence) ⟨false, ∅, [], outcomes⟩
    if rd.bound = false ∨ ∃ record ∈ rd.transitions.vals,
        record.state.status ≠ .confirmed ∨ record.state.eventId ∉ rd.completedEvents then
      .error .checkpointInvalid
    else .ok (rd.outcomes.vals.insertionSort fun a b => a.attemptId ≤ b.attemptId)

end WhatsAppMcp.Controller.Compaction
