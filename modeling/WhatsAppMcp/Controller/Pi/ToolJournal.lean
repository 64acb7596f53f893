import WhatsAppMcp.Controller.Pi.OwnMessages
import WhatsAppMcp.Controller.Pi.ToolEvents
import WhatsAppMcp.Controller.Redis.Repository
import WhatsAppMcp.Lib.Threads

/-!
# The tool journal

`createToolJournal` of `pi/tool-journal-extension.ts` with the part of
`runChatWorker` from `attach` to the end of the turn, as programs that await
their queries.

The variables that the programs share, `Live` of the session and `work` and
`lost` of the worker, are read and written by queries of their own, so that any
other program may run between two of them.  The model host fires `toolCall` and
`toolResult` whenever it likes, and the worker renews its lease by `renewal`.

`record` appends to the session file, `port` stands for what the SDK and the
other ports do, and the model host, the clock and the random bytes answer
anything.
-/

namespace WhatsAppMcp.Controller.Pi.ToolJournal

open Calls Redis

variable {Fp : Type}

/-! ## What the programs share -/

/-- `Live`.  The promise `tail` is the number of actions that were enqueued,
and how many of them have settled. -/
structure Live where
  attached : Bool
  running : Bool
  poisoned : Bool
  registered : Bool
  calls : List (String × MutationState)
  enqueued : Nat
  settled : Nat

/-- What `bind` puts into the map. -/
def Live.bound : Live := ⟨false, false, false, false, [], 0, 0⟩

/-- An assignment to the fields of `Live`. -/
inductive Update where
  | registered
  | attached
  | running (value : Bool)
  | poisoned
  | setCall (toolCallId : String) (attempt : MutationState)
  | deleteCall (toolCallId : String)
  | settled (rejected : Bool)

/-- `Map.set` keeps the place of a key that is there. -/
def setCall (calls : List (String × MutationState)) (toolCallId : String) (attempt : MutationState) :
    List (String × MutationState) :=
  if (calls.lookup toolCallId).isSome then
    calls.map fun call => if call.1 = toolCallId then (toolCallId, attempt) else call
  else calls ++ [(toolCallId, attempt)]

def Live.update (l : Live) : Update → Live
  | .registered => { l with registered := true }
  | .attached => { l with attached := true }
  | .running value => { l with running := value }
  | .poisoned => { l with poisoned := true }
  | .setCall toolCallId attempt => { l with calls := setCall l.calls toolCallId attempt }
  | .deleteCall toolCallId => { l with calls := l.calls.filter fun call => call.1 ≠ toolCallId }
  | .settled rejected => { l with settled := l.settled + 1, poisoned := l.poisoned || rejected }

/-! ## Queries -/

/-- What the SDK and the other ports are asked for. -/
inductive Port where
  | resolve
  | prepare
  | prompt
  | settled
  | afterPrompt
  | abort

/-- A query. -/
inductive Query (Fp : Type)
  | script (chat : String) (op : Op Fp)
  | findEvent (chat id : String)
  | append (work : ClaimedWork) (sends : List ConfirmedSend)
  | record (value : JournalEnvelope Fp)
  | work
  | lost
  | lose
  | renewed (epoch : String) (untilMs : Nat)
  | live
  | update (u : Update)
  | enqueue
  | turn (ticket : Nat)
  | tools
  | randomBytes
  | now
  | port (p : Port)

/-- What a query comes back with. -/
abbrev Query.Value : Query Fp → Type
  | .script _ _ => Reply Fp
  | .findEvent _ _ => Option (CompletionProof Fp)
  | .append _ _ => String
  | .work => ClaimedWork
  | .lost => Bool
  | .live => Live
  | .enqueue => Nat
  | .tools => List ToolInfo
  | .randomBytes | .now => String
  | .record _ | .lose | .renewed _ _ | .update _ | .turn _ | .port _ => Unit

/-- The value of a query, or the code of the error that it throws. -/
abbrev Query.Answer (q : Query Fp) : Type := Except ErrorClass q.Value

/-- A program of the journal. -/
abbrev Async (Fp α : Type) := Prog (Query Fp) Query.Answer ErrorClass α

/-- `await` of a query. -/
def ask (q : Query Fp) : Async Fp q.Value :=
  Prog.query q >>= fun
    | .ok value => pure value
    | .error code => throw code

/-- What the closures of one turn share: the digest of events, the session that
the journal is bound to, the length of the lease, and `JSON.parse`. -/
structure Host (Fp : Type) where
  fingerprint : NotificationV2 → Fp
  session : SessionBinding
  leaseMs : Nat
  parse : String → Option Json

/-- `if (!condition) throw new ControllerError(code)`. -/
def require (condition : Bool) (code : ErrorClass) : Async Fp Unit :=
  if condition then pure () else throw code

/-! ## `context.current()` -/

/-- The ownership is gone: `lost = true`, and the error. -/
def loseLease : Async Fp Unit := do
  ask .lose
  throw .leaseLost

variable [DecidableEq Fp] (host : Host Fp)

/-- `context.current()`. -/
def current : Async Fp Unit := do
  let gone ← ask .lost
  require (!gone) .leaseLost
  let work ← ask .work
  let renewed ← ask (.script work.event.canonicalChatJid
    (.renew (argsFor host.fingerprint work) host.leaseMs))
  let gone ← ask .lost
  match renewed, gone with
  | .fence epoch untilMs, false => do
    ask (.renewed epoch untilMs)
    let work ← ask .work
    let checked ← ask (.script work.event.canonicalChatJid
      (.checkWork (argsFor host.fingerprint work)))
    let gone ← ask .lost
    match checked, gone with
    | .deadlines _ _, false => pure ()
    | _, _ => loseLease
  | _, _ => loseLease

/-! ## `nativeJournal` of the repository -/

/-- An owned write, which succeeds with the reply `ok`. -/
def ownedWrite (work : ClaimedWork) (op : Op Fp) : Async Fp Bool := do
  let reply ← ask (.script work.event.canonicalChatJid op)
  pure (reply = .ok)

/-- `begin`. -/
def journalBegin (work : ClaimedWork) (a : MutationState) : Async Fp Bool := do
  if a.eventId ≠ work.event.eventId ∨ a.canonicalChatId ≠ work.event.canonicalChatJid ∨
      a.ownership ≠ work.ownership then pure false
  else
    match ← ask (.script work.event.canonicalChatJid .read) with
    | .chat _ (some session) _ _ =>
      ownedWrite work (.nativeJournalBegin (argsFor host.fingerprint work) a.attemptId
        ⟨host.fingerprint work.event, session, a⟩ session)
    | .chat _ none _ _ => pure false
    | _ => throw .storeUnavailable

/-- `confirm`. -/
def journalConfirm (work : ClaimedWork) (attemptId messageId : String) : Async Fp Bool := do
  require (Bridge.isOpaqueId attemptId && messageIdSchema messageId &&
    messageId.utf8ByteSize ≤ 512) .mutationUncertain
  let finishedAt ← ask .now
  ownedWrite work (.journalTransition (argsFor host.fingerprint work) attemptId
    (.confirmed messageId finishedAt))

/-- `uncertain`. -/
def journalUncertain (work : ClaimedWork) (attemptId : String) : Async Fp Bool := do
  require (Bridge.isOpaqueId attemptId) .mutationUncertain
  ownedWrite work (.journalTransition (argsFor host.fingerprint work) attemptId .uncertain)

omit [DecidableEq Fp] in
/-- `journalRecord(raw, chat).state` of every record. -/
def journalStates (chat : String) (records : List (JournalRecord Fp)) : Option (List MutationState) :=
  records.mapM fun
    | .native record => if isJournalRecord record chat then some record.state else none
    | .legacy _ => none

omit [DecidableEq Fp] in
/-- `list`. -/
def journalList (chat : String) : Async Fp (List MutationState) := do
  match ← ask (.script chat .journalList) with
  | .journal records =>
    match journalStates chat records with
    | some states => pure states
    | none => throw .mutationUncertain
  | _ => throw .storeUnavailable

/-! ## The journal of a session -/

/-- `gate`. -/
def gate : Async Fp Unit := do
  let before ← ask .live
  require (before.attached && before.running && !before.poisoned) .mutationUncertain
  current host
  let after ← ask .live
  require (!after.poisoned) .mutationUncertain

/-- `enqueue`: the action runs when those before it have settled. -/
def enqueue {α : Type} (action : Async Fp α) : Async Fp α := do
  let ticket ← ask .enqueue
  ask (.turn ticket)
  let value ← tryCatch action fun code => do
    ask (.update (.settled true))
    throw code
  ask (.update (.settled false))
  pure value

/-- `record`. -/
def record (state : MutationState) : Async Fp Unit := do
  gate host
  let work ← ask .work
  ask (.record ⟨host.fingerprint work.event, host.session, state⟩)
  gate host

/-- `uncertain`. -/
def uncertain (attempt : MutationState) : Async Fp Unit := do
  gate host
  let work ← ask .work
  let written ← journalUncertain host work attempt.attemptId
  require written .mutationUncertain
  record host attempt.toUncertain
  ask (.update .poisoned)

/-! ## `tool_call` -/

/-- What a program of the turn ends with.  `allowed`, and `untouched` for a tool
that does not mutate, let the tool run. -/
inductive Outcome where
  | untouched
  | allowed
  | denied
  | blocked
  | noted
  | failed
  | completed
  | paused
  deriving DecidableEq, Repr

/-- The host runs the tool after this outcome of its `tool_call`. -/
def Outcome.letsThrough : Outcome → Bool
  | .untouched | .allowed => true
  | _ => false

/-- The attempt of a call, as the handler builds it. -/
def attemptOf (work : ClaimedWork) (tool : Tool) (event : ToolCallEvent)
    (destination attemptId startedAt : String) : MutationState where
  attemptId := attemptId
  eventId := work.event.eventId
  canonicalChatId := work.event.canonicalChatJid
  toolCallId := event.toolCallId
  tool := tool.name
  destination := destination
  startedAt := startedAt
  ownership := work.ownership
  status := .attempting
  messageId := none
  finishedAt := none
  reason := none

/-- The action of `tool_call` from the attempt on. -/
def openAttempt (event : ToolCallEvent) (attempt : MutationState) : Async Fp Unit := do
  current host
  let work ← ask .work
  let exact := { attempt with ownership := work.ownership }
  let begun ← journalBegin host work exact
  require begun .mutationUncertain
  ask (.update (.setCall event.toolCallId exact))
  record host exact
  gate host

/-- The action of `tool_call`; `false` where the policy denies it. -/
def callAction (tool : Tool) (event : ToolCallEvent) : Async Fp Bool := do
  gate host
  let tools ← ask .tools
  require (verifySource tools event.toolName) .mutationUncertain
  let l ← ask .live
  require (l.calls.lookup event.toolCallId).isNone .mutationUncertain
  let work ← ask .work
  if permitsParticipantAttribution tool event.input work.event = false then pure false
  else
    match mutationDestination tool event.input with
    | none => throw .mutationUncertain
    | some destination =>
      let attemptId ← ask .randomBytes
      let startedAt ← ask .now
      let attempt := attemptOf work tool event destination attemptId startedAt
      require (mutationAttemptSchema attempt) .mutationUncertain
      openAttempt host event attempt
      pure true

/-- `if (l) l.poisoned = true; ctx.abort()`. -/
def poison (outcome : Outcome) : Async Fp Outcome := do
  ask (.update .poisoned)
  ask (.port .abort)
  pure outcome

/-- `resolve` finds the session, and then `action` runs within its `catch`. -/
def resolved (action : Async Fp Outcome) (failure : Outcome) : Async Fp Outcome := do
  let found ← tryCatch (do ask (.port .resolve); pure true) fun _ => pure false
  if found then tryCatch action fun _ => poison failure
  else do
    ask (.port .abort)
    pure failure

/-- The handler of `tool_call`. -/
def toolCall (event : ToolCallEvent) : Async Fp Outcome :=
  match toolOf event.toolName with
  | none => pure .untouched
  | some tool => resolved (do
      let allowed ← enqueue (callAction host tool event)
      pure (if allowed then .allowed else .denied)) .blocked

/-! ## `tool_result` -/

/-- The action of `tool_result` for the attempt of the call. -/
def settleAttempt (event : ToolResultEvent) (attempt : MutationState) (messageId : String) :
    Async Fp Unit := do
  let finishedAt ← ask .now
  record host (attempt.settle (.confirmed messageId finishedAt))
  current host
  let work ← ask .work
  let written ← journalConfirm host work attempt.attemptId messageId
  require written .mutationUncertain
  gate host
  ask (.update (.deleteCall event.toolCallId))

/-- The action of `tool_result`. -/
def resultAction (tool : Tool) (event : ToolResultEvent) : Async Fp Unit := do
  gate host
  let l ← ask .live
  match l.calls.lookup event.toolCallId with
  | none => throw .mutationUncertain
  | some attempt =>
    if attempt.tool ≠ tool.name ∨ mutationDestination tool event.input ≠ some attempt.destination then
      throw .mutationUncertain
    else
      match confirmedMessage host.parse event tool with
      | none => do
        uncertain host attempt
        throw .mutationUncertain
      | some messageId => settleAttempt host event attempt messageId

/-- The handler of `tool_result`. -/
def toolResult (event : ToolResultEvent) : Async Fp Outcome :=
  match toolOf event.toolName with
  | none => pure .untouched
  | some tool => resolved (do
      enqueue (resultAction host tool event)
      pure .noted) .failed

/-! ## `run` and `confirmed` -/

/-- `await l.tail`. -/
def awaitTail : Async Fp Unit := do
  let l ← ask .live
  ask (.turn l.enqueued)

/-- The prompt, with the code of its failure. -/
def prompted : Async Fp (Option ErrorClass) :=
  tryCatch (do ask (.port .prompt); pure none) fun code => pure (some code)

/-- The `try` block of `run`; a code is the classified failure of the prompt. -/
def runBody : Async Fp (Option ErrorClass) := do
  gate host
  let work ← ask .work
  let prior ← journalList work.event.canonicalChatJid
  require (prior.all fun a => a.eventId ≠ work.event.eventId) .mutationUncertain
  let failure ← prompted
  awaitTail
  let after ← journalList work.event.canonicalChatJid
  let own := after.filter fun a => a.eventId = work.event.eventId
  let l ← ask .live
  if !l.calls.isEmpty || own.any fun a => a.status ≠ .confirmed then
    match l.calls.head? with
    | some call => do
      uncertain host call.2
      throw .mutationUncertain
    | none => throw .mutationUncertain
  else
    match failure with
    | some code => pure (some (if own.any fun a => a.status = .confirmed then .sessionFailed else code))
    | none =>
      gate host
      require (after.all fun a => a.eventId = work.event.eventId && a.status = .confirmed)
        .mutationUncertain
      pure none

/-- `run`. -/
def run : Async Fp Unit := do
  ask (.port .resolve)
  let l ← ask .live
  require (l.attached && !l.running && !l.poisoned) .mutationUncertain
  ask (.update (.running true))
  let failure ← tryCatch (runBody host) fun _ => pure (some .mutationUncertain)
  match failure with
  | none => do
    awaitTail
    ask (.update (.running false))
  | some code => do
    ask (.update .poisoned)
    awaitTail
    ask (.update (.running false))
    throw code

/-- `confirmed`. -/
def confirmed : Async Fp (List ConfirmedSend) := do
  current host
  let work ← ask .work
  let records ← journalList work.event.canonicalChatJid
  require (records.all fun a => a.eventId = work.event.eventId && a.status = .confirmed)
    .mutationUncertain
  pure (records.map fun a => (⟨a.destination, a.messageId.getD ""⟩ : ConfirmedSend)).eraseDups

/-! ## The turn of the chat worker -/

/-- `attach` of the journal. -/
def attach : Async Fp Unit := do
  ask (.port .resolve)
  current host
  let l ← ask .live
  let work ← ask .work
  require (l.registered && !l.attached && !l.poisoned &&
    work.event.canonicalChatJid = host.session.canonicalChatId) .mutationUncertain
  ask (.update .attached)

/-- `prompt` of the session, where the journal runs the prompt of the SDK. -/
def sessionPrompt : Async Fp Unit := do
  current host
  current host
  run host
  ask (.port .settled)
  current host

instance (m : CompletionProof Fp) (chat id : String) : Decidable (VerifiedProof m chat id) :=
  inferInstanceAs (Decidable (_ ∧ _ ∧ _))

/-- `complete` of the repository. -/
def complete (work : ClaimedWork) (proof : CompletionProof Fp) : Async Fp Bool := do
  require (VerifiedProof proof work.event.canonicalChatJid work.event.eventId) .sessionFailed
  if proof.chatSequence ≠ work.event.chatSequence ∨
      proof.eventFingerprint ≠ host.fingerprint work.event then pure false
  else
    match ← ask (.findEvent work.event.canonicalChatJid work.event.eventId) with
    | none => pure false
    | some durable =>
      if durable ≠ proof then pure false
      else ownedWrite work (.complete (argsFor host.fingerprint work) proof.session
        proof.confirmedSends)

/-- The pause reason that an error code is. -/
def pauseReason? : ErrorClass → Option PauseReason
  | .leaseLost => some .leaseLost
  | .sequenceGap => some .sequenceGap
  | .sessionFailed => some .sessionFailed
  | .mutationUncertain => some .mutationUncertain
  | .usageUnknown => some .usageUnknown
  | .preparationFailed => some .preparationFailed
  | .checkpointInvalid => some .checkpointInvalid
  | .compactionCapacity => some .compactionCapacity
  | .compactionFailed => some .compactionFailed
  | .restoreFailed => some .restoreFailed
  | _ => none

/-- An error that is no pause reason counts as `reason`. -/
def within (reason : ErrorClass) (p : Async Fp Unit) : Async Fp Unit :=
  tryCatch p fun code => throw (if (pauseReason? code).isSome then code else reason)

/-- `host.attach` and `turns.attach`. -/
def attachTurn : Async Fp Unit := do
  current host
  current host
  attach host
  current host
  current host

/-- `turns.prepare` and `beginTurn`. -/
def prepareTurn : Async Fp Unit := do
  ask (.port .prepare)
  current host
  let work ← ask .work
  let begun ← ownedWrite work (.beginTurn (argsFor host.fingerprint work))
  require begun .mutationUncertain

/-- `turns.run` and `turns.afterPrompt`. -/
def promptTurn : Async Fp Unit := do
  current host
  current host
  sessionPrompt host
  current host
  ask (.port .afterPrompt)

/-- From the settled prompt to the completion of the event. -/
def completeTurn : Async Fp Unit := do
  current host
  let sends ← confirmed host
  current host
  let work ← ask .work
  let entryId ← ask (.append work sends)
  current host
  let work ← ask .work
  let proof : CompletionProof Fp := ⟨work.event.eventId, host.fingerprint work.event,
    work.event.canonicalChatJid, work.event.chatSequence, sends, entryId, host.session⟩
  let done ← complete host work proof
  require done .leaseLost

/-- The `catch` of the chat worker. -/
def pauseTurn (code : ErrorClass) : Async Fp Outcome := do
  let gone ← ask .lost
  if gone then pure .paused
  else
    tryCatch (do
      current host
      let work ← ask .work
      let _ ← ownedWrite work (.pause (argsFor host.fingerprint work)
        ((pauseReason? code).getD .sessionFailed))
      pure .paused) fun _ => do
        ask .lose
        pure .paused

/-- The chat worker from `host.attach` on. -/
def turn : Async Fp Outcome :=
  tryCatch (do
    within .sessionFailed (attachTurn host)
    within .preparationFailed (prepareTurn host)
    within .mutationUncertain (do promptTurn host; completeTurn host)
    pure .completed) fun code => pauseTurn host code

/-! ## The programs beside each other -/

/-- The programs of a turn. -/
inductive Part where
  | turn
  | toolCall (event : ToolCallEvent)
  | toolResult (event : ToolResultEvent)
  | sessionStart
  | renewal

/-- One round of the renewal loop. -/
def renewal : Async Fp Outcome :=
  tryCatch (do
    current host
    pure .noted) fun _ => do
      ask .lose
      pure .failed

/-- The handler of `session_start`. -/
def sessionStart : Async Fp Outcome := do
  ask (.update .registered)
  pure .noted

def Part.program : Part → Async Fp Outcome
  | .turn => ToolJournal.turn host
  | .toolCall event => ToolJournal.toolCall host event
  | .toolResult event => ToolJournal.toolResult host event
  | .sessionStart => ToolJournal.sessionStart
  | .renewal => ToolJournal.renewal host

end WhatsAppMcp.Controller.Pi.ToolJournal
