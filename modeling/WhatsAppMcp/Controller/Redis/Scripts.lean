import WhatsAppMcp.Controller.Redis.Keys

/-!
# The scripts of the session store

One definition for each operation of the Lua source in `redis/scripts.ts`, in
the order of that file, and `Op.run`, which dispatches on the operation as the
chain of `elseif op==...` does.  A script receives the nine keys and leaves
them changed beside its reply; it is atomic, as `EVAL` is.

Three things of the Lua text do not appear:

* the `TYPE` check of the keys, since every key has its type by construction;
* the checks that a decoded value is a table with the right fields, since a
  stored record is a value of its type; a check that a typed record can still
  fail (an absent `recovery`, a wrong `version`, a `compactionEntryId` where
  none belongs) is kept;
* `ARGV` entries that the caller fixes: the group name is one constant, and
  `accept` gets the event whose fields `repository.accept` passes one by one.

A command on a stream without its group fails and the script stops there;
the reply is then `storeUnavailable`.
-/

namespace WhatsAppMcp.Controller.Redis

open RedisStream (Stream)

variable {Fp : Type} [DecidableEq Fp]

/-! ## Arguments and replies -/

/-- `ARGV[2]` to `ARGV[8]` of an owned operation, as `argsFor` builds them. -/
structure WorkArgs (Fp : Type) where
  appOwner : String
  appEpoch : String
  chatOwner : String
  chatEpoch : String
  eventId : String
  streamId : StreamId
  fingerprint : Fp
  deriving DecidableEq

/-- `ARGV` of `claim`. -/
structure ClaimArgs where
  appOwner : String
  appEpoch : String
  chatOwner : String
  leaseMs : Nat
  gapTimeout : Nat

/-- `ARGV` of `recover-pel`. -/
structure RecoverArgs where
  appOwner : String
  appEpoch : String
  consumer : String
  start : StreamId
  count : Nat

/-- `ARGV` that `repair-intent` and `repair-claim` share. -/
structure RepairArgs where
  appOwner : String
  appEpoch : String
  chatOwner : String
  leaseMs : Nat
  chat : String

/-- What a script answers.  The first group are the one-word replies. -/
inductive Reply (Fp : Type) where
  | ok | lost | invalid | retry | accepted | duplicate | conflict
  | busy | paused | waiting | empty | started
  | ineligible | unsafeState | intentRequired | storeUnavailable
  | revisions (revision cursor identityRevision : String)
  | claimed (streamId : StreamId) (raw : NotificationV2) (epoch : String) (untilMs : Nat)
  | repairing (streamId : StreamId) (raw : NotificationV2) (session : SessionBinding)
      (checkpoint : CheckpointRecord Fp) (epoch : String) (untilMs : Nat)
  | fence (epoch : String) (untilMs : Nat)
  | recovered (next : StreamId) (claimed deleted : Nat)
  | deadlines (appUntilMs chatUntilMs : Nat)
  | turn (turnEvent : Option String)
  | chat (cursor : String) (session : Option SessionBinding) (pause : Option PauseReason)
      (gap : Option Nat)
  | journal (records : List (JournalRecord Fp))
  | checkpoint (record : Option (CheckpointRecord Fp))
  deriving DecidableEq

/-! ## The helpers at the head of the script -/

/-- `alive(key,owner,epoch)` at the time of its reading of the clock. -/
def Tenure.Alive (t : Tenure) (owner epoch : String) (now : Nat) : Prop :=
  t.owner = some owner ∧ t.epoch = some epoch ∧ now < t.untilMs.getD 0

instance (t : Tenure) (owner epoch : String) (now : Nat) : Decidable (t.Alive owner epoch now) :=
  inferInstanceAs (Decidable (_ ∧ _ ∧ _))

/-- `HGET lease appEpoch == appEpoch and HGET lease appOwner == appOwner`. -/
def LeaseHash.SameApp (l : LeaseHash) (appOwner appEpoch : String) : Prop :=
  l.appEpoch = some appEpoch ∧ l.appOwner = some appOwner

instance (l : LeaseHash) (appOwner appEpoch : String) : Decidable (l.SameApp appOwner appEpoch) :=
  inferInstanceAs (Decidable (_ ∧ _))

/-- `fence()`: both leases are alive and the chat lease is under the app lease. -/
def Keys.Fenced (k : Keys Fp) (clk : Clock) (w : WorkArgs Fp) : Prop :=
  k.app.Alive w.appOwner w.appEpoch (clk.now 0) ∧
    k.lease.Alive w.chatOwner w.chatEpoch (clk.now 1) ∧
      k.lease.SameApp w.appOwner w.appEpoch

instance (k : Keys Fp) (clk : Clock) (w : WorkArgs Fp) : Decidable (k.Fenced clk w) :=
  inferInstanceAs (Decidable (_ ∧ _ ∧ _))

/-- `work()`: the event record, when the caller holds both fences for it. -/
def Keys.work (k : Keys Fp) (clk : Clock) (w : WorkArgs Fp) : Option (EventRecord Fp) :=
  if k.Fenced clk w then
    match k.events.lookup w.eventId with
    | none => none
    | some e =>
      if e.id ≠ w.streamId ∨ e.fp ≠ w.fingerprint ∨ k.lease.event ≠ some w.eventId then none
      else some e
  else none

/-- `local e=work();if not e then return {'lost'} end`, and the rest of the
script on the event record. -/
def guarded (clk : Clock) (k : Keys Fp) (w : WorkArgs Fp)
    (body : EventRecord Fp → Reply Fp × Keys Fp) : Reply Fp × Keys Fp :=
  match k.work clk w with
  | none => (.lost, k)
  | some e => body e

/-- `barrier()`. -/
def Keys.barrier (k : Keys Fp) : Keys Fp :=
  { k with state := { k.state with durability := bump k.state.durability } }

/-- The five fields that a grant of the chat lease writes. -/
def LeaseHash.grant (l : LeaseHash) (owner epoch appOwner appEpoch event : String) : LeaseHash :=
  { l with owner := some owner, epoch := some epoch, appOwner := some appOwner,
           appEpoch := some appEpoch, event := some event }

/-- `HDEL lease owner until event`. -/
def LeaseHash.release (l : LeaseHash) : LeaseHash :=
  { l with owner := none, untilMs := none, event := none }

/-- What `repairEvidence` returns beside the keys: `{event,e,sessionRaw,rawCheckpoint,prepared}`. -/
structure RepairProof (Fp : Type) where
  event : String
  e : EventRecord Fp
  session : SessionBinding
  prepared : CheckpointRecord Fp

/-- Why `repairEvidence` refuses; `storeUnavailable` is its failing `XPENDING`. -/
inductive Refusal where
  | ineligible
  | unsafeState
  | intentRequired
  | storeUnavailable
  deriving DecidableEq, Repr

/-- The reply of a script that refuses. -/
def Refusal.reply : Refusal → Reply Fp
  | .ineligible => .ineligible
  | .unsafeState => .unsafeState
  | .intentRequired => .intentRequired
  | .storeUnavailable => .storeUnavailable

/-- `repairEvidence(chat,group,intent)`. -/
def repairEvidence (k : Keys Fp) (chat intent : String) : Except Refusal (RepairProof Fp) :=
  if k.state.chat ≠ some chat then .error .ineligible
  else if k.state.pause ≠ some .compactionFailed then .error .ineligible
  else
    match k.checkpoint with
    | none => .error .ineligible
    | some prepared =>
      if prepared.compactionEntryId.isSome ∨ prepared.phase ≠ .prepared ∨
          prepared.checkpoint.canonicalChatId ≠ chat then .error .ineligible
      else if k.state.turnEvent.isSome ∨ k.tools.entries ≠ [] then .error .unsafeState
      else
        match k.state.session with
        | none => .error .unsafeState
        | some session =>
          if session.canonicalChatId ≠ chat then .error .unsafeState
          else
            match k.seqs.lookup (Decimal.inc k.cursor) with
            | none => .error .unsafeState
            | some event =>
              match k.events.lookup event with
              | none => .error .unsafeState
              | some e =>
                if e.seq ≠ Decimal.inc k.cursor then .error .unsafeState
                else if k.stream.xrange e.id ≠ [(e.id, event)] then .error .unsafeState
                else
                  match k.stream.xpending e.id with
                  | none => .error .storeUnavailable
                  | some none => .error .unsafeState
                  | some (some _) =>
                    match prepared.recovery with
                    | some recovery =>
                      if recovery.Matches event e.fp e.id session then .ok ⟨event, e, session, prepared⟩
                      else .error .unsafeState
                    | none =>
                      if intent = "" then .error .intentRequired
                      else .ok ⟨event, e, session, prepared⟩

/-! ## The operations -/

/-- `init`. -/
def init (k : Keys Fp) (chat : String) : Reply Fp × Keys Fp :=
  let k := if k.state = .empty then
      { k with state := { k.state with cursor := some "0", revision := some "0", chat := some chat } }
    else k
  if k.state.chat ≠ some chat then (.invalid, k)
  else (.ok, ({ k with stream := k.stream.xgroupCreate } : Keys Fp).barrier)

/-- `snapshot`. -/
def snapshot (k : Keys Fp) : Reply Fp × Keys Fp :=
  (.revisions (counter k.state.revision) k.cursor (counter k.app.identityRevision), k)

/-- `accept`.  `revision` and `identityRevision` are the snapshot the caller
holds, `completed` is what its marker lookup found. -/
def accept (clk : Clock) (k : Keys Fp) (revision : String) (event : NotificationV2) (fp : Fp)
    (completed : Bool) (identityRevision : String) : Reply Fp × Keys Fp :=
  let seq := event.chatSequence.repr
  let identity : Identity Fp := ⟨event.canonicalChatJid, fp⟩
  if counter k.state.revision ≠ revision ∨ counter k.app.identityRevision ≠ identityRevision then
    (.retry, k)
  else if ∃ existing, k.identities.lookup event.eventId = some existing ∧ existing ≠ identity then
    (.conflict, k)
  else
    match k.events.lookup event.eventId with
    | some e => if e.fp ≠ fp ∨ e.seq ≠ seq then (.conflict, k) else (.duplicate, k.barrier)
    | none =>
      if ∃ other, k.seqs.lookup seq = some other ∧ other ≠ event.eventId then (.conflict, k)
      else if completed then (.duplicate, k.barrier)
      else if !Decimal.less k.cursor seq then (.conflict, k)
      else
        let (id, stream) := k.stream.xadd (clk.now 0) event.eventId
        (.accepted, { k with
          stream := stream
          events := k.events.insert event.eventId ⟨id, fp, seq, event⟩
          seqs := k.seqs.insert seq event.eventId
          identities := k.identities.insert event.eventId identity : Keys Fp }.barrier)

/-- `app-acquire`. -/
def appAcquire (clk : Clock) (k : Keys Fp) (owner : String) (leaseMs : Nat) :
    Reply Fp × Keys Fp :=
  if clk.now 0 < k.app.untilMs.getD 0 then (.busy, k)
  else
    let epoch := Decimal.inc (counter k.app.epoch)
    if 32 < epoch.length then (.lost, k)
    else
      let untilMs := clk.now 1 + leaseMs
      (.fence epoch untilMs, { k with
        app := { k.app with owner := some owner, epoch := some epoch, untilMs := some untilMs } })

/-- `app-renew`. -/
def appRenew (clk : Clock) (k : Keys Fp) (owner epoch : String) (leaseMs : Nat) :
    Reply Fp × Keys Fp :=
  if ¬ k.app.Alive owner epoch (clk.now 0) then (.lost, k)
  else
    let untilMs := clk.now 1 + leaseMs
    (.fence epoch untilMs, { k with app := { k.app with untilMs := some untilMs } })

/-- `app-release`. -/
def appRelease (clk : Clock) (k : Keys Fp) (owner epoch : String) : Reply Fp × Keys Fp :=
  if ¬ k.app.Alive owner epoch (clk.now 0) then (.lost, k)
  else (.ok, { k with app := { k.app with owner := none, untilMs := none } })

/-- One turn of the loop over `HVALS tools` in `claim`. -/
def sweepStep (acc : Hash (JournalRecord Fp) × Bool) (record : JournalRecord Fp) :
    Hash (JournalRecord Fp) × Bool :=
  if record.state.status = .confirmed then acc
  else
    match record with
    | .native envelope =>
      (acc.1.insert envelope.state.attemptId
        (.native { envelope with state := envelope.state.toUncertain }), true)
    | .legacy _ => (acc.1, true)

/-- The loop over `HVALS tools` in `claim`: native records that are not
confirmed become uncertain; the flag is `unresolved`. -/
def sweep (tools : Hash (JournalRecord Fp)) : Hash (JournalRecord Fp) × Bool :=
  tools.vals.foldl sweepStep (tools, false)

/-- `claim`. -/
def claim (clk : Clock) (k : Keys Fp) (a : ClaimArgs) : Reply Fp × Keys Fp :=
  if ¬ k.app.Alive a.appOwner a.appEpoch (clk.now 0) then (.lost, k)
  else if k.state.pause.isSome then (.paused, k)
  else if k.lease.SameApp a.appOwner a.appEpoch ∧ clk.now 1 < k.lease.untilMs.getD 0 then
    (.waiting, k)
  else if (sweep k.tools).2 then
    (.paused, { k with
      tools := (sweep k.tools).1
      state := { k.state with pause := some .mutationUncertain } : Keys Fp }.barrier)
  else
    match k.seqs.lookup (Decimal.inc k.cursor) with
    | none =>
      if k.events.entries = [] then (.empty, { k with state := { k.state with gap := none } })
      else
        let gap := k.state.gap.getD (clk.now 2)
        if a.gapTimeout + gap ≤ clk.now 3 then
          (.paused, { k with
            state := { k.state with gap := some gap, pause := some .sequenceGap } : Keys Fp }.barrier)
        else (.waiting, { k with state := { k.state with gap := some gap } : Keys Fp }.barrier)
    | some event =>
      match k.events.lookup event with
      | none => (.lost, k)
      | some e =>
        let epoch := Decimal.inc (counter k.lease.epoch)
        if 32 < epoch.length then (.lost, k)
        else
          match k.stream.xclaim a.chatOwner e.id with
          | none => (.storeUnavailable, k)
          | some (false, stream) => (.lost, { k with stream := stream })
          | some (true, stream) =>
            let untilMs := clk.now 4 + a.leaseMs
            (.claimed e.id e.raw epoch untilMs, { k with
              stream := stream
              lease := { k.lease.grant a.chatOwner epoch a.appOwner a.appEpoch event with
                untilMs := some untilMs }
              state := { k.state with gap := none } : Keys Fp }.barrier)

/-- `recover-pel`. -/
def recoverPel (clk : Clock) (k : Keys Fp) (a : RecoverArgs) : Reply Fp × Keys Fp :=
  if ¬ k.app.Alive a.appOwner a.appEpoch (clk.now 0) then (.lost, k)
  else if k.lease.SameApp a.appOwner a.appEpoch ∧ clk.now 1 < k.lease.untilMs.getD 0 then
    (.busy, k)
  else if k.state.pause.isSome then (.paused, k)
  else
    match k.stream.xautoclaim a.consumer a.start a.count with
    | none => (.storeUnavailable, k)
    | some (r, stream) =>
      let pause := if r.deleted = [] then k.state.pause else some .sequenceGap
      (.recovered r.next r.claimed.length r.deleted.length,
        { k with stream := stream, state := { k.state with pause := pause } : Keys Fp }.barrier)

/-- `repair-intent`. -/
def repairIntent (clk : Clock) (k : Keys Fp) (a : RepairArgs) : Reply Fp × Keys Fp :=
  if ¬ k.app.Alive a.appOwner a.appEpoch (clk.now 0) then (.lost, k)
  else if k.lease.SameApp a.appOwner a.appEpoch ∧ clk.now 1 < k.lease.untilMs.getD 0 then
    (.busy, k)
  else
    match repairEvidence k a.chat "@generate" with
    | .error reason => (reason.reply, k)
    | .ok proof =>
      if proof.prepared.recovery.isSome then (.ineligible, k)
      else
        let epoch := Decimal.inc (counter k.lease.epoch)
        if 32 < epoch.length then (.lost, k)
        else
          let untilMs := clk.now 2 + a.leaseMs
          (.repairing proof.e.id proof.e.raw proof.session proof.prepared epoch untilMs,
            { k with lease := { k.lease.grant a.chatOwner epoch a.appOwner a.appEpoch proof.event with
                repairIntent := none, untilMs := some untilMs } : Keys Fp }.barrier)

/-- `repair-claim`. -/
def repairClaim (clk : Clock) (k : Keys Fp) (a : RepairArgs) (intent : String) :
    Reply Fp × Keys Fp :=
  if ¬ k.app.Alive a.appOwner a.appEpoch (clk.now 0) then (.lost, k)
  else if k.lease.SameApp a.appOwner a.appEpoch ∧ clk.now 1 < k.lease.untilMs.getD 0 then
    (.busy, k)
  else
    match repairEvidence k a.chat intent with
    | .error reason => (reason.reply, k)
    | .ok proof =>
      let epoch := Decimal.inc (counter k.lease.epoch)
      if 32 < epoch.length then (.lost, k)
      else
        let untilMs := clk.now 2 + a.leaseMs
        let repairIntent := if proof.prepared.recovery.isSome then none else some intent
        (.repairing proof.e.id proof.e.raw proof.session proof.prepared epoch untilMs,
          { k with lease := { k.lease.grant a.chatOwner epoch a.appOwner a.appEpoch proof.event with
              repairIntent := repairIntent, untilMs := some untilMs } : Keys Fp }.barrier)

/-- `repair-release-fence`: the chat fence is compared without its deadline. -/
def repairReleaseFence (clk : Clock) (k : Keys Fp)
    (appOwner appEpoch chatOwner chatEpoch : String) : Reply Fp × Keys Fp :=
  if ¬ k.app.Alive appOwner appEpoch (clk.now 0) ∨ k.lease.owner ≠ some chatOwner ∨
      k.lease.epoch ≠ some chatEpoch ∨ k.lease.appOwner ≠ some appOwner ∨
      k.lease.appEpoch ≠ some appEpoch then (.lost, k)
  else (.ok, { k with lease := { k.lease.release with repairIntent := none } : Keys Fp }.barrier)

/-- `repair-release`. -/
def repairRelease (clk : Clock) (k : Keys Fp) (w : WorkArgs Fp) (session : SessionBinding) :
    Reply Fp × Keys Fp :=
  guarded clk k w fun _ =>
    if k.state.session ≠ some session then (.lost, k)
    else (.ok, { k with lease := { k.lease.release with repairIntent := none } : Keys Fp }.barrier)

/-- `check-work`. -/
def checkWork (clk : Clock) (k : Keys Fp) (w : WorkArgs Fp) : Reply Fp × Keys Fp :=
  guarded clk k w fun _ =>
    (.deadlines (k.app.untilMs.getD 0) (k.lease.untilMs.getD 0), k.barrier)

/-- `turn-state`. -/
def turnState (clk : Clock) (k : Keys Fp) (w : WorkArgs Fp) : Reply Fp × Keys Fp :=
  guarded clk k w fun _ => (.turn k.state.turnEvent, k)

/-- `begin-turn`. -/
def beginTurn (clk : Clock) (k : Keys Fp) (w : WorkArgs Fp) : Reply Fp × Keys Fp :=
  guarded clk k w fun _ =>
    if k.state.turnEvent.isSome then (.started, k)
    else (.ok, { k with state := { k.state with turnEvent := some w.eventId } : Keys Fp }.barrier)

/-- `read`. -/
def read (k : Keys Fp) : Reply Fp × Keys Fp :=
  (.chat k.cursor k.state.session k.state.pause k.state.gap, k)

/-- `renew`. -/
def renew (clk : Clock) (k : Keys Fp) (w : WorkArgs Fp) (leaseMs : Nat) : Reply Fp × Keys Fp :=
  guarded clk k w fun _ =>
    let untilMs := clk.now 2 + leaseMs
    (.fence w.chatEpoch untilMs,
      { k with lease := { k.lease with untilMs := some untilMs } : Keys Fp }.barrier)

/-- `pause`. -/
def pause (clk : Clock) (k : Keys Fp) (w : WorkArgs Fp) (reason : PauseReason) :
    Reply Fp × Keys Fp :=
  guarded clk k w fun _ =>
    (.ok, { k with state := { k.state with pause := some reason } : Keys Fp }.barrier)

/-- `bind`. -/
def bind (clk : Clock) (k : Keys Fp) (w : WorkArgs Fp) (session : SessionBinding) :
    Reply Fp × Keys Fp :=
  guarded clk k w fun _ =>
    if ∃ old, k.state.session = some old ∧ old ≠ session then (.lost, k)
    else (.ok, { k with state := { k.state with session := some session } : Keys Fp }.barrier)

/-- The loop of `complete` passes this record: it is confirmed, belongs to the
event, and one of the sends given reports it. -/
def Settled (record : JournalRecord Fp) (w : WorkArgs Fp) (sends : List ConfirmedSend) : Prop :=
  record.state.status = .confirmed ∧ record.state.eventId = w.eventId ∧
    ¬ record.Foreign w.fingerprint ∧ ∃ sent ∈ sends, sent.Reports record.state

instance (record : JournalRecord Fp) (w : WorkArgs Fp) (sends : List ConfirmedSend) :
    Decidable (Settled record w sends) :=
  inferInstanceAs (Decidable (_ ∧ _ ∧ _ ∧ _))

/-- `complete`. -/
def complete (clk : Clock) (k : Keys Fp) (w : WorkArgs Fp) (session : SessionBinding)
    (sends : List ConfirmedSend) : Reply Fp × Keys Fp :=
  guarded clk k w fun e =>
    if e.seq ≠ Decimal.inc k.cursor ∨ k.state.session ≠ some session then (.lost, k)
    else if ∃ record ∈ k.tools.vals, ¬ Settled record w sends then (.lost, k)
    else (.ok, { k with
      state := { k.state with
        cursor := some e.seq, revision := bump k.state.revision, turnEvent := none }
      app := { k.app with identityRevision := bump k.app.identityRevision }
      stream := (k.stream.xack e.id).xdel e.id
      events := k.events.erase w.eventId
      seqs := k.seqs.erase e.seq
      identities := k.identities.erase w.eventId
      tools := ∅
      lease := k.lease.release : Keys Fp }.barrier)

/-- `journal-begin`. -/
def journalBegin (clk : Clock) (k : Keys Fp) (w : WorkArgs Fp) (attemptId : String)
    (state : MutationState) : Reply Fp × Keys Fp :=
  guarded clk k w fun _ =>
    if (k.tools.lookup attemptId).isSome then (.lost, k)
    else (.ok, { k with tools := k.tools.insert attemptId (.legacy state) : Keys Fp }.barrier)

/-- `native-journal-begin`. -/
def nativeJournalBegin (clk : Clock) (k : Keys Fp) (w : WorkArgs Fp) (attemptId : String)
    (record : JournalEnvelope Fp) (session : SessionBinding) : Reply Fp × Keys Fp :=
  guarded clk k w fun _ =>
    if k.state.turnEvent ≠ some w.eventId ∨ k.state.session ≠ some session then (.lost, k)
    else if record.eventFingerprint ≠ w.fingerprint ∨ record.state.eventId ≠ w.eventId ∨
        record.state.attemptId ≠ attemptId ∨ record.state.status ≠ .attempting then (.lost, k)
    else if (k.tools.lookup attemptId).isSome then (.lost, k)
    else if ∃ r ∈ k.tools.vals,
        r.state.eventId = w.eventId ∧ r.state.toolCallId = record.state.toolCallId then (.lost, k)
    else (.ok, { k with tools := k.tools.insert attemptId (.native record) : Keys Fp }.barrier)

/-- `journal-transition`. -/
def journalTransition (clk : Clock) (k : Keys Fp) (w : WorkArgs Fp) (attemptId : String)
    (settlement : Settlement) : Reply Fp × Keys Fp :=
  guarded clk k w fun _ =>
    match k.tools.lookup attemptId with
    | none => (.lost, k)
    | some record =>
      if record.Foreign w.fingerprint ∨ record.state.eventId ≠ w.eventId ∨
          record.state.status ≠ .attempting then (.lost, k)
      else
        let pause := match settlement with
          | .confirmed _ _ => k.state.pause
          | .uncertain => some .mutationUncertain
        (.ok, { k with
          state := { k.state with pause := pause }
          tools := k.tools.insert attemptId
            (record.withState (record.state.settle settlement)) : Keys Fp }.barrier)

/-- `checkpoint-prepare`. -/
def checkpointPrepare (clk : Clock) (k : Keys Fp) (w : WorkArgs Fp) (t : CheckpointRecord Fp)
    (suppliedSession : SessionBinding) : Reply Fp × Keys Fp :=
  guarded clk k w fun e =>
    match k.state.session, t.recovery with
    | some stateSession, some recovery =>
      if k.state.chat ≠ some t.checkpoint.canonicalChatId ∨ suppliedSession ≠ stateSession ∨
          ¬ recovery.Matches w.eventId w.fingerprint w.streamId stateSession ∨
          e.fp ≠ recovery.eventFingerprint ∨ e.id ≠ recovery.streamId then (.lost, k)
      else
        match k.checkpoint with
        | none => (.ok, { k with checkpoint := some t : Keys Fp }.barrier)
        | some p =>
          if p.checkpointId = t.checkpointId then
            if p ≠ t then (.lost, k) else (.ok, { k with checkpoint := some t : Keys Fp }.barrier)
          else if p.phase ≠ .restored ∧ p.phase ≠ .aborted then (.lost, k)
          else (.ok, { k with checkpoint := some t : Keys Fp }.barrier)
    | _, _ => (.lost, k)

/-- `checkpoint-transition`.  `expected` is the text the caller read before,
`next` the text it wants to write. -/
def checkpointTransition (clk : Clock) (k : Keys Fp) (w : WorkArgs Fp) (checkpointId : String)
    (phase : CheckpointPhase) (entryId : String) (expected next : CheckpointRecord Fp) :
    Reply Fp × Keys Fp :=
  guarded clk k w fun _ =>
    match k.checkpoint with
    | none => (.lost, k)
    | some t =>
      if t.checkpointId ≠ checkpointId then (.lost, k)
      else if phase = .compacted ∧ t.phase ≠ .prepared ∨
          phase = .restored ∧ (t.phase ≠ .compacted ∨ t.compactionEntryId ≠ some entryId) then
        (.lost, k)
      else if t ≠ expected then (.lost, k)
      else (.ok, { k with checkpoint := some next : Keys Fp }.barrier)

/-- `checkpoint-abort`. -/
def checkpointAbort (clk : Clock) (k : Keys Fp) (w : WorkArgs Fp)
    (expectedSession : SessionBinding) (checkpointId : String)
    (expected next : CheckpointRecord Fp) (intent : String) : Reply Fp × Keys Fp :=
  guarded clk k w fun _ =>
    match repairEvidence k expectedSession.canonicalChatId intent with
    | .error .storeUnavailable => (.storeUnavailable, k)
    | .error _ => (.lost, k)
    | .ok proof =>
      if proof.event ≠ w.eventId ∨ proof.e.id ≠ w.streamId ∨ proof.e.fp ≠ w.fingerprint ∨
          expectedSession ≠ proof.session ∨ proof.prepared ≠ expected then (.lost, k)
      else if proof.prepared.phase ≠ .prepared ∨ proof.prepared.checkpointId ≠ checkpointId ∨
          next.phase ≠ .aborted ∨ next.checkpointId ≠ checkpointId ∨
          next.compactionEntryId.isSome then (.lost, k)
      else if proof.prepared.recovery.isNone ∧
          (intent = "" ∨ k.lease.repairIntent ≠ some intent) then (.lost, k)
      else (.ok, { k with
        checkpoint := some next
        state := { k.state with pause := none }
        lease := { k.lease.release with repairIntent := none } : Keys Fp }.barrier)

/-! ## The dispatch -/

/-- A call of the store: the operation with its `ARGV`.  `waitForWork` is the
`XREADGROUP` of the repository's reader connection, which shares the stream. -/
inductive Op (Fp : Type) where
  | init (chat : String)
  | snapshot
  | accept (revision : String) (event : NotificationV2) (fp : Fp) (completed : Bool)
      (identityRevision : String)
  | appAcquire (owner : String) (leaseMs : Nat)
  | appRenew (owner epoch : String) (leaseMs : Nat)
  | appRelease (owner epoch : String)
  | claim (a : ClaimArgs)
  | recoverPel (a : RecoverArgs)
  | repairIntent (a : RepairArgs)
  | repairClaim (a : RepairArgs) (intent : String)
  | repairReleaseFence (appOwner appEpoch chatOwner chatEpoch : String)
  | repairRelease (w : WorkArgs Fp) (session : SessionBinding)
  | checkWork (w : WorkArgs Fp)
  | turnState (w : WorkArgs Fp)
  | beginTurn (w : WorkArgs Fp)
  | read
  | renew (w : WorkArgs Fp) (leaseMs : Nat)
  | pause (w : WorkArgs Fp) (reason : PauseReason)
  | bind (w : WorkArgs Fp) (session : SessionBinding)
  | complete (w : WorkArgs Fp) (session : SessionBinding) (sends : List ConfirmedSend)
  | journalBegin (w : WorkArgs Fp) (attemptId : String) (state : MutationState)
  | nativeJournalBegin (w : WorkArgs Fp) (attemptId : String) (record : JournalEnvelope Fp)
      (session : SessionBinding)
  | journalTransition (w : WorkArgs Fp) (attemptId : String) (settlement : Settlement)
  | journalList
  | checkpointPrepare (w : WorkArgs Fp) (t : CheckpointRecord Fp)
      (suppliedSession : SessionBinding)
  | checkpointTransition (w : WorkArgs Fp) (checkpointId : String) (phase : CheckpointPhase)
      (entryId : String) (expected next : CheckpointRecord Fp)
  | checkpointAbort (w : WorkArgs Fp) (expectedSession : SessionBinding) (checkpointId : String)
      (expected next : CheckpointRecord Fp) (intent : String)
  | checkpointLatest
  | waitForWork (consumer : String)

/-- The reply of an operation and the keys it leaves. -/
def Op.run (clk : Clock) (k : Keys Fp) : Op Fp → Reply Fp × Keys Fp
  | .init chat => Redis.init k chat
  | .snapshot => Redis.snapshot k
  | .accept revision event fp completed identityRevision =>
    Redis.accept clk k revision event fp completed identityRevision
  | .appAcquire owner leaseMs => Redis.appAcquire clk k owner leaseMs
  | .appRenew owner epoch leaseMs => Redis.appRenew clk k owner epoch leaseMs
  | .appRelease owner epoch => Redis.appRelease clk k owner epoch
  | .claim a => Redis.claim clk k a
  | .recoverPel a => Redis.recoverPel clk k a
  | .repairIntent a => Redis.repairIntent clk k a
  | .repairClaim a intent => Redis.repairClaim clk k a intent
  | .repairReleaseFence appOwner appEpoch chatOwner chatEpoch =>
    Redis.repairReleaseFence clk k appOwner appEpoch chatOwner chatEpoch
  | .repairRelease w session => Redis.repairRelease clk k w session
  | .checkWork w => Redis.checkWork clk k w
  | .turnState w => Redis.turnState clk k w
  | .beginTurn w => Redis.beginTurn clk k w
  | .read => Redis.read k
  | .renew w leaseMs => Redis.renew clk k w leaseMs
  | .pause w reason => Redis.pause clk k w reason
  | .bind w session => Redis.bind clk k w session
  | .complete w session sends => Redis.complete clk k w session sends
  | .journalBegin w attemptId state => Redis.journalBegin clk k w attemptId state
  | .nativeJournalBegin w attemptId record session =>
    Redis.nativeJournalBegin clk k w attemptId record session
  | .journalTransition w attemptId settlement =>
    Redis.journalTransition clk k w attemptId settlement
  | .journalList => (.journal k.tools.vals, k)
  | .checkpointPrepare w t suppliedSession => Redis.checkpointPrepare clk k w t suppliedSession
  | .checkpointTransition w checkpointId phase entryId expected next =>
    Redis.checkpointTransition clk k w checkpointId phase entryId expected next
  | .checkpointAbort w expectedSession checkpointId expected next intent =>
    Redis.checkpointAbort clk k w expectedSession checkpointId expected next intent
  | .checkpointLatest => (.checkpoint k.checkpoint, k)
  | .waitForWork consumer => (.ok, { k with stream := k.stream.xreadgroup consumer })

end WhatsAppMcp.Controller.Redis
