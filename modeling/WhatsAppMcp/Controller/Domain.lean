import WhatsAppMcp.Lib.RedisStream

/-!
# The domain of the session controller

The value types of `session-controller/src/domain.ts` that the session store
and its callers pass around: the immutable event, the session binding, the
fences, the records of the mutation journal, and the checkpoint record.

Two conventions hold in every module of the controller.

* A text that the controller only compares (an event id, a JID, a session
  file) is a `String`.  A value that it stores as JSON and reads back is the
  decoded value: the writer serialises one closed record with a fixed key
  order, so two stored texts are equal exactly when the records are.
* The digest of an event is a value of a type `Fp`.  SHA-256 is not part of
  this repository, so `Fp` and the function into it stay parameters.
-/

namespace WhatsAppMcp.Controller

/-! ## Events and sessions -/

/-- `StreamIdSchema`: the texts `<ms>-<seq>` without leading zeros. -/
abbrev StreamId := RedisStream.Id

/-- `chat_kind` of a notification. -/
inductive ChatKind where
  | group
  | operatorPrivate
  deriving DecidableEq, Repr

/-- `NotificationV2`: the immutable event the bridge delivers.  The two literal
fields, `schema_version` and `event_type`, have one value each and are left
out.  The last field is the lower bound of `SequenceSchema`. -/
structure NotificationV2 where
  eventId : String
  messageId : String
  eventTimestamp : String
  receivedAt : String
  chatSequence : Nat
  senderJid : String
  senderAltJid : Option String
  isFromMe : Bool
  chatKind : ChatKind
  chatJid : String
  canonicalChatJid : String
  chatSequence_pos : 1 ≤ chatSequence
  deriving DecidableEq, Repr

/-- `SessionBinding`: the session file a chat is bound to. -/
structure SessionBinding where
  canonicalChatId : String
  sessionId : String
  sessionFile : String
  deriving DecidableEq, Repr

/-- `PauseReason`. -/
inductive PauseReason where
  | leaseLost
  | sequenceGap
  | sessionFailed
  | mutationUncertain
  | usageUnknown
  | preparationFailed
  | checkpointInvalid
  | compactionCapacity
  | compactionFailed
  | restoreFailed
  deriving DecidableEq, Repr

/-- `ErrorClass`: the code of a `ControllerError`. -/
inductive ErrorClass where
  | configInvalid
  | signatureInvalid
  | payloadInvalid
  | policyDenied
  | bodyTooLarge
  | bodyInvalid
  | requestTimeout
  | storeUnavailable
  | identityConflict
  | notReady
  | intakeClosed
  | internalFailed
  | listenFailed
  | leaseLost
  | sequenceGap
  | sessionFailed
  | mutationUncertain
  | usageUnknown
  | preparationFailed
  | checkpointInvalid
  | compactionCapacity
  | compactionFailed
  | restoreFailed
  deriving DecidableEq, Repr

/-! ## Fences -/

/-- `Fence`: one holder of a lease.  The epoch is a decimal text. -/
structure Fence where
  owner : String
  epoch : String
  expiresAtMs : Nat
  deriving DecidableEq, Repr

/-- `Ownership`: the two fences a worker holds. -/
structure Ownership where
  app : Fence
  chat : Fence
  deriving DecidableEq, Repr

/-- `ClaimedWork`: what a granted claim hands to a worker. -/
structure ClaimedWork where
  streamId : StreamId
  event : NotificationV2
  ownership : Ownership
  deriving DecidableEq

/-! ## The mutation journal -/

/-- `status` of a `MutationState`. -/
inductive MutationStatus where
  | attempting
  | confirmed
  | uncertain
  deriving DecidableEq, Repr

/-- `MutationState`: one attempt of a mutating tool call.  `messageId` and
`finishedAt` come with the status `confirmed`, `reason` with `uncertain`. -/
structure MutationState where
  attemptId : String
  eventId : String
  canonicalChatId : String
  toolCallId : String
  tool : String
  destination : String
  startedAt : String
  ownership : Ownership
  status : MutationStatus
  messageId : Option String
  finishedAt : Option String
  reason : Option PauseReason
  deriving DecidableEq, Repr

/-- `MutationStateSchema`: the fields that come with the status are there, and no others. -/
def MutationState.shaped (t : MutationState) : Bool :=
  match t.status with
  | .attempting => t.messageId.isNone && t.finishedAt.isNone && t.reason.isNone
  | .confirmed => t.messageId.isSome && t.finishedAt.isSome && t.reason.isNone
  | .uncertain => t.messageId.isNone && t.finishedAt.isNone && t.reason == some .mutationUncertain

/-- `JournalEnvelopeSchema`: the record of the native journal. -/
structure JournalEnvelope (Fp : Type) where
  eventFingerprint : Fp
  session : SessionBinding
  state : MutationState
  deriving DecidableEq

/-- A field of the tools hash.  A record with a `state` member is native; an
older one is the state itself. -/
inductive JournalRecord (Fp : Type) where
  | native (envelope : JournalEnvelope Fp)
  | legacy (state : MutationState)
  deriving DecidableEq

variable {Fp : Type}

/-- `record.state or record`. -/
def JournalRecord.state : JournalRecord Fp → MutationState
  | .native envelope => envelope.state
  | .legacy state => state

@[simp] theorem JournalRecord.state_native (envelope : JournalEnvelope Fp) :
    (JournalRecord.native envelope).state = envelope.state := rfl

@[simp] theorem JournalRecord.state_legacy (state : MutationState) :
    (JournalRecord.legacy state : JournalRecord Fp).state = state := rfl

/-- A record with another state in it. -/
def JournalRecord.withState : JournalRecord Fp → MutationState → JournalRecord Fp
  | .native envelope, state => .native { envelope with state := state }
  | .legacy _, state => .legacy state

@[simp] theorem JournalRecord.withState_state (record : JournalRecord Fp) (state : MutationState) :
    (record.withState state).state = state := by
  cases record <;> rfl

/-- `record.state and record.eventFingerprint~=fp`. -/
def JournalRecord.Foreign : JournalRecord Fp → Fp → Prop
  | .native envelope, fp => envelope.eventFingerprint ≠ fp
  | .legacy _, _ => False

instance [DecidableEq Fp] (record : JournalRecord Fp) (fp : Fp) : Decidable (record.Foreign fp) :=
  match record with
  | .native envelope => inferInstanceAs (Decidable (envelope.eventFingerprint ≠ fp))
  | .legacy _ => inferInstanceAs (Decidable False)

/-- `t.status='uncertain';t.reason='mutation_uncertain'`. -/
def MutationState.toUncertain (t : MutationState) : MutationState :=
  { t with status := .uncertain, reason := some .mutationUncertain }

/-- What `journal-transition` is asked to write, with what `confirmed` carries. -/
inductive Settlement where
  | confirmed (messageId finishedAt : String)
  | uncertain
  deriving DecidableEq, Repr

/-- The state of an attempt after its settlement. -/
def MutationState.settle (t : MutationState) : Settlement → MutationState
  | .confirmed messageId finishedAt =>
    { t with status := .confirmed, messageId := some messageId, finishedAt := some finishedAt }
  | .uncertain => t.toUncertain

/-- One element of `confirmedSends`. -/
structure ConfirmedSend where
  destination : String
  messageId : String
  deriving DecidableEq, Repr

/-- The send reports this confirmed attempt. -/
def ConfirmedSend.Reports (sent : ConfirmedSend) (t : MutationState) : Prop :=
  sent.destination = t.destination ∧ some sent.messageId = t.messageId

instance (sent : ConfirmedSend) (t : MutationState) : Decidable (sent.Reports t) :=
  inferInstanceAs (Decidable (_ ∧ _))

/-! ## Completion markers -/

/-- `CompletionProof`: a completion marker found in a session file, with the
binding of that file. -/
structure CompletionProof (Fp : Type) where
  eventId : String
  eventFingerprint : Fp
  canonicalChatId : String
  chatSequence : Nat
  confirmedSends : List ConfirmedSend
  entryId : String
  session : SessionBinding
  deriving DecidableEq

/-! ## Checkpoints -/

/-- One element of `confirmedToolOutcomes`. -/
structure ToolOutcome where
  attemptId : String
  tool : String
  destination : String
  messageId : String
  deriving DecidableEq, Repr

/-- `CheckpointV1`: the payload of a compaction. -/
structure CheckpointV1 where
  canonicalChatId : String
  lastCompletedSequence : Nat
  policyVersion : String
  templateVersion : String
  createdAt : String
  goals : List String
  decisions : List String
  constraints : List String
  verifiedFacts : List String
  pendingWork : List String
  approvalBoundaries : List String
  nextSteps : List String
  confirmedToolOutcomes : List ToolOutcome
  deriving DecidableEq, Repr

/-- `SessionFileGeneration`: the identity of a session file, as decimal texts. -/
structure SessionFileGeneration where
  device : String
  inode : String
  size : String
  mtimeNs : String
  ctimeNs : String
  deriving DecidableEq, Repr

/-- `CheckpointRecoveryBindingV1`. -/
structure CheckpointRecovery (Fp : Type) where
  version : Nat
  eventId : String
  eventFingerprint : Fp
  streamId : StreamId
  session : SessionBinding
  generation : SessionFileGeneration
  deriving DecidableEq

/-- The recovery binding names exactly this event and session. -/
def CheckpointRecovery.Matches (r : CheckpointRecovery Fp) (eventId : String) (fp : Fp)
    (streamId : StreamId) (session : SessionBinding) : Prop :=
  r.version = 1 ∧ r.eventId = eventId ∧ r.eventFingerprint = fp ∧ r.streamId = streamId ∧
    r.session = session

instance [DecidableEq Fp] (r : CheckpointRecovery Fp) (eventId : String) (fp : Fp)
    (streamId : StreamId) (session : SessionBinding) :
    Decidable (r.Matches eventId fp streamId session) :=
  inferInstanceAs (Decidable (_ ∧ _ ∧ _ ∧ _ ∧ _))

/-- `phase` of a checkpoint record. -/
inductive CheckpointPhase where
  | prepared
  | compacted
  | restored
  | aborted
  deriving DecidableEq, Repr

/-- `CheckpointRecord`. -/
structure CheckpointRecord (Fp : Type) where
  checkpointId : String
  checkpoint : CheckpointV1
  recovery : Option (CheckpointRecovery Fp)
  phase : CheckpointPhase
  compactionEntryId : Option String
  deriving DecidableEq

end WhatsAppMcp.Controller
