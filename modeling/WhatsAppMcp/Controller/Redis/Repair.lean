import WhatsAppMcp.Controller.Redis.Coherence
import WhatsAppMcp.Controller.Redis.Repository

/-!
# A compaction repair touches only what it repairs

The repair operations write a chat without the claim of a worker.
`Keys.Repaired` lists what one of them may leave behind: the keys as they were,
the keys with another chat lease, or the result of an abort with everything
that the abort has proved.  `repair_run` is the one lemma that opens the five
scripts.

`repairs_touch_only` is the law of a whole sequence of repairs in any state of
the store, with passages of time in between.
-/

namespace WhatsAppMcp.Controller.Redis

open Trace

variable {Fp : Type} [DecidableEq Fp]

/-! ## Repairs -/

/-- The call of a repair operation. -/
def Op.Repairs (fingerprint : NotificationV2 → Fp) (digest : LegacyRepairDigest Fp) (op : Op Fp) :
    Prop :=
  match op with
  | .repairIntent _ | .repairClaim _ _ | .repairRelease _ _ | .repairReleaseFence _ _ _ _ => True
  | .checkpointAbort .. => ∃ claim generation current,
      abortCompactionRepair fingerprint digest claim generation current = some op
  | _ => False

/-- What `repairEvidence` has found in the keys. -/
structure RepairProof.Proved (proof : RepairProof Fp) (k : Keys Fp) (chat : String) : Prop where
  paused : k.state.pause = some .compactionFailed
  checkpoint : k.checkpoint = some proof.prepared
  prepared : proof.prepared.phase = .prepared
  unturned : k.state.turnEvent = none
  unjournalled : k.tools.entries = []
  session : k.state.session = some proof.session
  chat : proof.session.canonicalChatId = chat
  head : k.seqs.lookup (Decimal.inc k.cursor) = some proof.event
  event : k.events.lookup proof.event = some proof.e
  entry : k.stream.xrange proof.e.id = [(proof.e.id, proof.event)]
  pending : ∃ row, k.stream.xpending proof.e.id = some (some row)

theorem repairEvidence_proved {k : Keys Fp} {chat intent : String} {proof : RepairProof Fp}
    (h : repairEvidence k chat intent = .ok proof) : proof.Proved k chat := by
  unfold repairEvidence at h
  split at h
  · cases h
  split at h
  · cases h
  next hpaused =>
  split at h
  · cases h
  next prepared hcheckpoint =>
  split at h
  · cases h
  next hprepared =>
  split at h
  · cases h
  next hsafe =>
  split at h
  · cases h
  next session hsession =>
  split at h
  · cases h
  next hchat =>
  split at h
  · cases h
  next event hhead =>
  split at h
  · cases h
  next e hevent =>
  split at h
  · cases h
  split at h
  · cases h
  next hentry =>
  split at h
  · cases h
  · cases h
  next row hpending =>
  push Not at hpaused hprepared hsafe hchat hentry
  have hproved : RepairProof.Proved ⟨event, e, session, prepared⟩ k chat :=
    ⟨hpaused, hcheckpoint, hprepared.2.1, by simpa using hsafe.1, hsafe.2, hsession, hchat, hhead,
      hevent, hentry, row, hpending⟩
  split at h
  · split at h
    · cases h
      exact hproved
    · cases h
  · split at h
    · cases h
    · cases h
      exact hproved

/-! ## One call -/

/-- The reply of a repair that did what it was asked for. -/
def Reply.Succeeds : Reply Fp → Prop
  | .ok | .repairing .. => True
  | _ => False

/-- What a repair may leave behind. -/
inductive Keys.Repaired (k : Keys Fp) : Op Fp → Reply Fp → Keys Fp → Prop
  /-- Any other answer leaves every key as it was. -/
  | refused {op : Op Fp} {r : Reply Fp} (hr : ¬ r.Succeeds) : k.Repaired op r k
  /-- A granted or released repair lease. -/
  | leased {op : Op Fp} {r : Reply Fp} (lease : LeaseHash) (hr : r.Succeeds)
      (hop : ∀ w session checkpointId expected next intent,
        op ≠ .checkpointAbort w session checkpointId expected next intent) :
      k.Repaired op r ({ k with lease := lease } : Keys Fp).barrier
  /-- An abort of the checkpoint that it was given. -/
  | aborted {w : WorkArgs Fp} {proof : RepairProof Fp} {intent : String}
      (hproved : proof.Proved k proof.session.canonicalChatId) (hevent : proof.event = w.eventId)
      (hid : proof.e.id = w.streamId) (hfp : proof.e.fp = w.fingerprint) :
      k.Repaired
        (.checkpointAbort w proof.session proof.prepared.checkpointId proof.prepared
          proof.prepared.abort intent) .ok
        ({ k with
          checkpoint := some proof.prepared.abort
          state := { k.state with pause := none }
          lease := { k.lease.release with repairIntent := none } } : Keys Fp).barrier

section Calls

variable {fingerprint : NotificationV2 → Fp} {digest : LegacyRepairDigest Fp} {clk : Clock}
  {k k' : Keys Fp} {r : Reply Fp}

omit [DecidableEq Fp] in
theorem refusal_fails (reason : Refusal) : ¬ (reason.reply : Reply Fp).Succeeds := by
  cases reason <;> exact id

theorem repairIntent_repaired {a : RepairArgs} (h : repairIntent clk k a = (r, k')) :
    k.Repaired (.repairIntent a) r k' := by
  unfold repairIntent at h
  simp only at h
  split at h
  · cases h
    exact .refused id
  split at h
  · cases h
    exact .refused id
  split at h
  · next reason _ =>
    cases h
    exact .refused (refusal_fails reason)
  split at h
  · cases h
    exact .refused id
  split at h
  · cases h
    exact .refused id
  · cases h
    exact .leased _ trivial (by simp)

theorem repairClaim_repaired {a : RepairArgs} {intent : String}
    (h : repairClaim clk k a intent = (r, k')) : k.Repaired (.repairClaim a intent) r k' := by
  unfold repairClaim at h
  simp only at h
  split at h
  · cases h
    exact .refused id
  split at h
  · cases h
    exact .refused id
  split at h
  · next reason _ =>
    cases h
    exact .refused (refusal_fails reason)
  split at h
  · cases h
    exact .refused id
  · cases h
    exact .leased _ trivial (by simp)

omit [DecidableEq Fp] in
theorem repairReleaseFence_repaired {appOwner appEpoch chatOwner chatEpoch : String}
    (h : repairReleaseFence clk k appOwner appEpoch chatOwner chatEpoch = (r, k')) :
    k.Repaired (.repairReleaseFence appOwner appEpoch chatOwner chatEpoch) r k' := by
  unfold repairReleaseFence at h
  split at h
  · cases h
    exact .refused id
  · cases h
    exact .leased _ trivial (by simp)

theorem repairRelease_repaired {w : WorkArgs Fp} {session : SessionBinding}
    (h : repairRelease clk k w session = (r, k')) : k.Repaired (.repairRelease w session) r k' := by
  obtain ⟨-, rfl, rfl⟩ | ⟨e, -, hbody⟩ := guarded_cases h
  · exact .refused id
  · split at hbody
    · cases hbody
      exact .refused id
    · cases hbody
      exact .leased _ trivial (by simp)

theorem checkpointAbort_repaired {w : WorkArgs Fp} {session : SessionBinding} {intent : String}
    {expected : CheckpointRecord Fp}
    (h : checkpointAbort clk k w session expected.checkpointId expected expected.abort intent =
      (r, k')) :
    k.Repaired (.checkpointAbort w session expected.checkpointId expected expected.abort intent) r
      k' := by
  obtain ⟨-, rfl, rfl⟩ | ⟨e, -, hbody⟩ := guarded_cases h
  · exact .refused id
  split at hbody
  · cases hbody
    exact .refused id
  · cases hbody
    exact .refused id
  next proof hproof =>
  split at hbody
  · cases hbody
    exact .refused id
  next hsame =>
  split at hbody
  · cases hbody
    exact .refused id
  split at hbody
  · cases hbody
    exact .refused id
  · cases hbody
    push Not at hsame
    obtain ⟨hevent, hid, hfp, rfl, rfl⟩ := hsame
    exact .aborted (repairEvidence_proved hproof) hevent hid hfp

/-- Every repair leaves one of these. -/
theorem repair_run {op : Op Fp} (hop : op.Repairs fingerprint digest)
    (h : op.run clk k = (r, k')) : k.Repaired op r k' := by
  cases op with
  | repairIntent a => exact repairIntent_repaired h
  | repairClaim a intent => exact repairClaim_repaired h
  | repairReleaseFence appOwner appEpoch chatOwner chatEpoch => exact repairReleaseFence_repaired h
  | repairRelease w session => exact repairRelease_repaired h
  | checkpointAbort w session checkpointId expected next intent =>
    obtain ⟨claim, generation, current, hcall⟩ := hop
    unfold abortCompactionRepair at hcall
    split at hcall
    · cases hcall
    split at hcall
    · cases hcall
    split at hcall
    · cases hcall
    · cases hcall
      exact checkpointAbort_repaired h
  | _ => exact hop.elim

end Calls

/-! ## A sequence of repairs -/

/-- What no repair touches: everything but the lease, the checkpoint, the pause
and the durability counter. -/
def Keys.Spared (k k' : Keys Fp) : Prop :=
  k' = { k with
    lease := k'.lease
    checkpoint := k'.checkpoint
    state := { k.state with pause := k'.state.pause, durability := k'.state.durability } }

omit [DecidableEq Fp] in
theorem Keys.Spared.refl (k : Keys Fp) : k.Spared k := rfl

omit [DecidableEq Fp] in
theorem Keys.Spared.trans {k₁ k₂ k₃ : Keys Fp} (h : k₁.Spared k₂) (h' : k₂.Spared k₃) :
    k₁.Spared k₃ := by
  unfold Keys.Spared at *
  rw [h', h]

omit [DecidableEq Fp] in
theorem Keys.Repaired.spared {k k' : Keys Fp} {op : Op Fp} {r : Reply Fp}
    (h : k.Repaired op r k') : k.Spared k' := by
  cases h with
  | refused => exact .refl k
  | leased lease => rfl
  | aborted => rfl

/-- A repair of one chat leaves the keys of every other chat. -/
theorem repair_step {chats : List String} {fingerprint : NotificationV2 → Fp}
    {digest : LegacyRepairDigest Fp} {s t : Store Fp} {c : Call Fp} {r : Reply Fp}
    (h : Store.Step chats fingerprint s (some (c, r)) t) (hop : c.op.Repairs fingerprint digest) :
    (s.keys c.chat).Repaired c.op r (t.keys c.chat) ∧
      ∀ other, other ≠ c.chat → t.keys other = s.keys other := by
  cases h with
  | @call _ _ k time hissued hstart hend hrun =>
    have hrepaired := repair_run hop hrun
    rw [Store.keys_write]
    refine ⟨hrepaired, fun other hne => ?_⟩
    have hspared : (s.keys c.chat).Spared k := hrepaired.spared
    have happ : k.app = s.app := by rw [hspared]; rfl
    have hidentities : k.identities = s.identities := by rw [hspared]; rfl
    show ({ (s.write c.chat k time).chats other with
      app := k.app, identities := k.identities } : Keys Fp) = _
    rw [Store.write_chats_ne s k time hne, happ, hidentities]
    rfl

/-- Any sequence of repairs, from any state of the store, leaves the cursor, the
events with their sequences and identities, the stream with its pending entries,
the session binding, the turn event and the tool journal of every chat.  Each
further repair leaves its chat in one of the ways of `Keys.Repaired`: every key
as it was unless it succeeds, only the chat lease beside the durability counter
unless it is an abort, and after an abort the phase, the pause and the lease,
where the pause was `compaction_failed`, no turn was begun, the journal was
empty, the head event was pending, and the session and the record were the ones
given. -/
theorem repairs_touch_only {chats : List String} {fingerprint : NotificationV2 → Fp}
    {digest : LegacyRepairDigest Fp} {s t : Store Fp} {ls : List (Label Fp)}
    (run : Exec (Store.Step chats fingerprint) s ls t)
    (repairs : ∀ c r, some (c, r) ∈ ls → c.op.Repairs fingerprint digest) :
    (∀ chat, (s.keys chat).Spared (t.keys chat)) ∧
      ∀ c r u, c.op.Repairs fingerprint digest → Store.Step chats fingerprint t (some (c, r)) u →
        (t.keys c.chat).Repaired c.op r (u.keys c.chat) ∧
          ∀ other, other ≠ c.chat → u.keys other = t.keys other := by
  refine ⟨fun chat => ?_, fun c r u hop hstep => repair_step hstep hop⟩
  induction run with
  | nil => exact .refl _
  | @snoc ls t u l run last ih =>
    have hbefore := ih fun c r hmem => repairs c r (List.mem_append_left _ hmem)
    cases l with
    | none =>
      cases last
      exact hbefore
    | some call =>
      obtain ⟨c, r⟩ := call
      obtain ⟨hrepaired, hother⟩ := repair_step last (repairs c r (by simp))
      refine hbefore.trans ?_
      by_cases hchat : chat = c.chat
      · rw [hchat]
        exact hrepaired.spared
      · rw [hother chat hchat]
        exact .refl _

/-! ## A sample repair -/

/-- The checkpoint that the worker of the sample event prepares. -/
def sampleCheckpoint : CheckpointRecord NotificationV2 where
  checkpointId := "checkpoint-1"
  checkpoint :=
    { canonicalChatId := "1@g.us", lastCompletedSequence := 0, policyVersion := "1"
      templateVersion := "1", createdAt := "2026-01-01T00:00:03Z", goals := [], decisions := []
      constraints := [], verifiedFacts := [], pendingWork := [], approvalBoundaries := []
      nextSteps := [], confirmedToolOutcomes := [] }
  recovery := some
    { version := 1, eventId := "event-1", eventFingerprint := sampleEvent, streamId := ⟨3, 0⟩
      session := sampleSession, generation := ⟨"1", "2", "3", "4", "5"⟩ }
  phase := .prepared
  compactionEntryId := none

/-- The worker prepares a checkpoint and pauses the chat. -/
def pausedCalls : List (String × Nat × Op NotificationV2) :=
  [("1@g.us", 1, .init "1@g.us"), ("1@g.us", 2, .appAcquire "app" 100),
    ("1@g.us", 3, .accept "0" sampleEvent sampleEvent false "0"),
    ("1@g.us", 4, .claim ⟨"app", "1", "worker", 50, 10⟩),
    ("1@g.us", 5, .bind sampleWork sampleSession),
    ("1@g.us", 6, .checkpointPrepare sampleWork sampleCheckpoint sampleSession),
    ("1@g.us", 7, .pause sampleWork .compactionFailed)]

/-- The work of the repair lease. -/
def sampleRepair : ClaimedWork where
  streamId := ⟨3, 0⟩
  event := sampleEvent
  ownership := ⟨⟨"app", "1", 102⟩, ⟨"repair", "2", 110⟩⟩

/-- The lease of the worker runs out, and a repair aborts the checkpoint. -/
def repairCalls : List (String × Nat × Op NotificationV2) :=
  [("1@g.us", 60, .repairClaim ⟨"app", "1", "repair", 50, "1@g.us"⟩ ""),
    ("1@g.us", 61, .checkpointAbort (argsFor id sampleRepair) sampleSession "checkpoint-1"
      sampleCheckpoint sampleCheckpoint.abort "")]

theorem repairCalls_driven : Driven ["1@g.us"] id 7 repairCalls := by
  simp [repairCalls, Driven, Call.Issued]

example : ((((Store.empty 0).drive pausedCalls).2.drive repairCalls).2.keys "1@g.us").checkpoint =
    some sampleCheckpoint.abort := rfl

/-- No digest is asked for: the record has a recovery binding. -/
def sampleDigest : LegacyRepairDigest NotificationV2 := fun _ _ _ _ _ => ""

theorem repairCalls_repair (c : Call NotificationV2) (r : Reply NotificationV2)
    (h : some (c, r) ∈ (((Store.empty 0).drive pausedCalls).2.drive repairCalls).1) :
    c.op.Repairs id sampleDigest := by
  simp only [repairCalls, Store.drive, List.mem_cons, Option.some.injEq, Prod.mk.injEq,
    List.not_mem_nil, or_false] at h
  rcases h with ⟨rfl, -⟩ | ⟨rfl, -⟩
  · exact trivial
  · exact ⟨⟨sampleRepair, sampleSession, sampleCheckpoint, none⟩, ⟨"1", "2", "3", "4", "5"⟩,
      sampleCheckpoint, rfl⟩

theorem repairs_touch_only_of_repairCalls :
    (((Store.empty 0).drive pausedCalls).2.keys "1@g.us").Spared
      ((((Store.empty 0).drive pausedCalls).2.drive repairCalls).2.keys "1@g.us") :=
  (repairs_touch_only (drive_exec repairCalls_driven) repairCalls_repair).1 "1@g.us"

end WhatsAppMcp.Controller.Redis
