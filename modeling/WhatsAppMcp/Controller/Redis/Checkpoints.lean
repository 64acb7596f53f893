import WhatsAppMcp.Lib.Succession
import WhatsAppMcp.Controller.Redis.Repair

/-!
# The checkpoint phase machine

The checkpoint key of a chat is one register that three operations write, each
after a read that may be stale by then.  `checkpointHistory` lists the records
that a run has written, in their order.

`run_checkpoint` says what one call does to the register, and `checkpoints_run`
that the records of a run are a `Succession.History` along
`CheckpointRecord.Next`.  `checkpoint_phase_machine` reads the claims about one
checkpoint off that history.
-/

namespace WhatsAppMcp.Controller

variable {Fp : Type}

/-! ## Phases -/

/-- A checkpoint in this phase is over. -/
def CheckpointPhase.Terminal (phase : CheckpointPhase) : Prop := phase = .restored ∨ phase = .aborted

/-- A checkpoint in this phase has its compaction entry. -/
def CheckpointPhase.Written (phase : CheckpointPhase) : Prop :=
  phase = .compacted ∨ phase = .restored

/-- A new checkpoint, as `prepare` writes it. -/
def CheckpointRecord.Fresh (t : CheckpointRecord Fp) : Prop :=
  t.phase = .prepared ∧ t.compactionEntryId = none

/-- One move of a checkpoint: `prepared → compacted → restored`,
`prepared → aborted`, or the repetition of a `prepare`. -/
inductive CheckpointRecord.Next (p : CheckpointRecord Fp) : CheckpointRecord Fp → Prop
  | repeated (hphase : p.phase = .prepared) : p.Next p
  | compacted {entryId : String} (hphase : p.phase = .prepared) : p.Next (p.advance .compacted entryId)
  | restored {entryId : String} (hphase : p.phase = .compacted)
      (hentry : p.compactionEntryId = some entryId) : p.Next (p.advance .restored entryId)
  | aborted (hphase : p.phase = .prepared) : p.Next p.abort

/-- A later record of a checkpoint: the payload and the recovery binding are the
same, and so is a compaction entry once it is there. -/
structure CheckpointRecord.Keeps (p t : CheckpointRecord Fp) : Prop where
  checkpoint : t.checkpoint = p.checkpoint
  recovery : t.recovery = p.recovery
  entry : p.phase.Written → t.phase.Written ∧ t.compactionEntryId = p.compactionEntryId

theorem CheckpointRecord.Next.key {p t : CheckpointRecord Fp} (h : p.Next t) :
    t.checkpointId = p.checkpointId := by
  cases h <;> rfl

theorem CheckpointRecord.Next.keeps {p t : CheckpointRecord Fp} (h : p.Next t) : p.Keeps t := by
  cases h with
  | repeated => exact ⟨rfl, rfl, fun hwritten => ⟨hwritten, rfl⟩⟩
  | compacted hphase => exact ⟨rfl, rfl, by simp [CheckpointPhase.Written, hphase]⟩
  | restored hphase hentry => exact ⟨rfl, rfl, fun _ => ⟨.inr rfl, hentry.symm⟩⟩
  | aborted hphase => exact ⟨rfl, rfl, by simp [CheckpointPhase.Written, hphase]⟩

theorem CheckpointRecord.Keeps.trans {p t u : CheckpointRecord Fp} (h : p.Keeps t)
    (h' : t.Keeps u) : p.Keeps u := by
  refine ⟨h'.checkpoint.trans h.checkpoint, h'.recovery.trans h.recovery, fun hwritten => ?_⟩
  obtain ⟨hmid, hentry⟩ := h.entry hwritten
  obtain ⟨hlast, hentry'⟩ := h'.entry hmid
  exact ⟨hlast, hentry'.trans hentry⟩

instance : Trans (@CheckpointRecord.Keeps Fp) CheckpointRecord.Keeps CheckpointRecord.Keeps :=
  ⟨CheckpointRecord.Keeps.trans⟩

end WhatsAppMcp.Controller

namespace WhatsAppMcp.Controller.Redis

open Trace Succession

variable {Fp : Type} [DecidableEq Fp]

/-! ## The register -/

/-- The record that a call writes into the checkpoint key. -/
def Op.checkpointWritten : Op Fp → Reply Fp → Option (CheckpointRecord Fp)
  | .checkpointPrepare _ t _, .ok => some t
  | .checkpointTransition _ _ _ _ _ next, .ok => some next
  | .checkpointAbort _ _ _ _ next _, .ok => some next
  | _, _ => none

/-- The record that a label writes into the checkpoint key of a chat. -/
def Label.checkpointWritten (chat : String) (l : Label Fp) : Option (CheckpointRecord Fp) :=
  l.bind fun (c, r) => if c.chat = chat then c.op.checkpointWritten r else none

/-- The records that a run writes into the checkpoint key of a chat. -/
def checkpointHistory (chat : String) (ls : List (Label Fp)) : List (CheckpointRecord Fp) :=
  ls.filterMap (Label.checkpointWritten chat)

/-- The call comes from the repository where it is one of the three checkpoint
operations. -/
def Op.FromRepository (fingerprint : NotificationV2 → Fp) (digest : LegacyRepairDigest Fp)
    (op : Op Fp) : Prop :=
  match op with
  | .checkpointPrepare .. => ∃ work record, checkpointsPrepare fingerprint work record = some op
  | .checkpointTransition .. => ∃ work checkpointId phase entryId current,
      checkpointsTransition fingerprint work checkpointId phase entryId current = some op
  | .checkpointAbort .. => ∃ claim generation current,
      abortCompactionRepair fingerprint digest claim generation current = some op
  | _ => True

/-- Every `prepare` of the run has a checkpoint id that the run has not written
before, or repeats the latest record. -/
def PreparesFresh (ls : List (Label Fp)) : Prop :=
  ∀ before c r after w t session, ls = before ++ some (c, r) :: after →
    c.op = .checkpointPrepare w t session →
    (∀ p ∈ checkpointHistory c.chat before, p.checkpointId ≠ t.checkpointId) ∨
      (checkpointHistory c.chat before).getLast? = some t

/-! ## One call -/

/-- What a call does to the register. -/
inductive Keys.Registers (k : Keys Fp) (op : Op Fp) (r : Reply Fp) (k' : Keys Fp) : Prop
  | kept (hwritten : op.checkpointWritten r = none) (hkept : k'.checkpoint = k.checkpoint)
  | moved {p t : CheckpointRecord Fp} (hwritten : op.checkpointWritten r = some t)
      (hold : k.checkpoint = some p) (hnext : p.Next t) (hnew : k'.checkpoint = some t)
  | opened {w : WorkArgs Fp} {session : SessionBinding} {t : CheckpointRecord Fp}
      (call : op = .checkpointPrepare w t session) (hwritten : op.checkpointWritten r = some t)
      (hfresh : t.Fresh)
      (hold : ∀ p, k.checkpoint = some p →
        p = t ∨ p.checkpointId ≠ t.checkpointId ∧ p.phase.Terminal)
      (hnew : k'.checkpoint = some t)

section Calls

variable {fingerprint : NotificationV2 → Fp} {digest : LegacyRepairDigest Fp} {clk : Clock}
  {k k' : Keys Fp} {r : Reply Fp} {w : WorkArgs Fp}

omit [DecidableEq Fp] in
theorem repair_checkpoint {op : Op Fp} (h : k.Repaired op r k')
    (hop : ∀ w session checkpointId expected next intent,
      op ≠ .checkpointAbort w session checkpointId expected next intent) :
    k'.checkpoint = k.checkpoint := by
  cases h with
  | refused => rfl
  | leased => rfl
  | aborted => exact absurd rfl (hop _ _ _ _ _ _)

/-- A script that is guarded by the fences keeps the register where its body
does. -/
theorem guarded_checkpoint {body : EventRecord Fp → Reply Fp × Keys Fp}
    (h : guarded clk k w body = (r, k'))
    (hbody : ∀ e, body e = (r, k') → k'.checkpoint = k.checkpoint) :
    k'.checkpoint = k.checkpoint := by
  obtain ⟨-, -, rfl⟩ | ⟨e, -, h⟩ := guarded_cases h
  · rfl
  · exact hbody e h

omit [DecidableEq Fp] in
theorem claim_checkpoint {a : ClaimArgs} (h : claim clk k a = (r, k')) :
    k'.checkpoint = k.checkpoint := by
  unfold claim at h
  simp only at h
  repeat' split at h
  all_goals
    cases h
    rfl

theorem accept_checkpoint {revision identityRevision : String} {event : NotificationV2} {fp : Fp}
    {completed : Bool}
    (h : accept clk k revision event fp completed identityRevision = (r, k')) :
    k'.checkpoint = k.checkpoint := by
  unfold accept at h
  simp only at h
  repeat' split at h
  all_goals
    cases h
    rfl

/-- The other operations leave the register alone. -/
theorem run_checkpoint_frame {op : Op Fp} (h : op.run clk k = (r, k'))
    (hop : match op with
      | .checkpointPrepare .. | .checkpointTransition .. | .checkpointAbort .. => False
      | _ => True) : op.checkpointWritten r = none ∧ k'.checkpoint = k.checkpoint := by
  cases op with
  | checkpointPrepare => exact hop.elim
  | checkpointTransition => exact hop.elim
  | checkpointAbort => exact hop.elim
  | init chat =>
    refine ⟨rfl, ?_⟩
    simp only [Op.run, init] at h
    split_ifs at h <;> cases h <;> rfl
  | snapshot =>
    cases h
    exact ⟨rfl, rfl⟩
  | accept revision event fp completed identityRevision => exact ⟨rfl, accept_checkpoint h⟩
  | appAcquire owner leaseMs =>
    refine ⟨rfl, ?_⟩
    simp only [Op.run, appAcquire] at h
    split_ifs at h <;> cases h <;> rfl
  | appRenew owner epoch leaseMs =>
    refine ⟨rfl, ?_⟩
    simp only [Op.run, appRenew] at h
    split_ifs at h <;> cases h <;> rfl
  | appRelease owner epoch =>
    refine ⟨rfl, ?_⟩
    simp only [Op.run, appRelease] at h
    split_ifs at h <;> cases h <;> rfl
  | claim a => exact ⟨rfl, claim_checkpoint h⟩
  | recoverPel a =>
    refine ⟨rfl, ?_⟩
    simp only [Op.run, recoverPel] at h
    repeat' split at h
    all_goals
      cases h
      rfl
  | repairIntent a => exact ⟨rfl, repair_checkpoint (repairIntent_repaired h) (by simp)⟩
  | repairClaim a intent => exact ⟨rfl, repair_checkpoint (repairClaim_repaired h) (by simp)⟩
  | repairReleaseFence appOwner appEpoch chatOwner chatEpoch =>
    exact ⟨rfl, repair_checkpoint (repairReleaseFence_repaired h) (by simp)⟩
  | repairRelease w session => exact ⟨rfl, repair_checkpoint (repairRelease_repaired h) (by simp)⟩
  | checkWork w =>
    exact ⟨rfl, guarded_checkpoint h fun e hbody => by cases hbody; rfl⟩
  | turnState w =>
    exact ⟨rfl, guarded_checkpoint h fun e hbody => by cases hbody; rfl⟩
  | beginTurn w =>
    refine ⟨rfl, guarded_checkpoint h fun e hbody => ?_⟩
    split_ifs at hbody <;> cases hbody <;> rfl
  | read =>
    cases h
    exact ⟨rfl, rfl⟩
  | renew w leaseMs =>
    exact ⟨rfl, guarded_checkpoint h fun e hbody => by cases hbody; rfl⟩
  | pause w reason =>
    exact ⟨rfl, guarded_checkpoint h fun e hbody => by cases hbody; rfl⟩
  | bind w session =>
    refine ⟨rfl, guarded_checkpoint h fun e hbody => ?_⟩
    split_ifs at hbody <;> cases hbody <;> rfl
  | complete w session sends =>
    refine ⟨rfl, guarded_checkpoint h fun e hbody => ?_⟩
    split_ifs at hbody <;> cases hbody <;> rfl
  | journalBegin w attemptId state =>
    refine ⟨rfl, guarded_checkpoint h fun e hbody => ?_⟩
    split_ifs at hbody <;> cases hbody <;> rfl
  | nativeJournalBegin w attemptId record session =>
    refine ⟨rfl, guarded_checkpoint h fun e hbody => ?_⟩
    split_ifs at hbody <;> cases hbody <;> rfl
  | journalTransition w attemptId settlement =>
    refine ⟨rfl, guarded_checkpoint h fun e hbody => ?_⟩
    split at hbody
    · cases hbody
      rfl
    · split_ifs at hbody <;> cases hbody <;> rfl
  | journalList =>
    cases h
    exact ⟨rfl, rfl⟩
  | checkpointLatest =>
    cases h
    exact ⟨rfl, rfl⟩
  | waitForWork consumer =>
    cases h
    exact ⟨rfl, rfl⟩

theorem checkpointPrepare_registers {t : CheckpointRecord Fp} {session : SessionBinding}
    (hfresh : t.Fresh) (h : checkpointPrepare clk k w t session = (r, k')) :
    k.Registers (.checkpointPrepare w t session) r k' := by
  obtain ⟨-, rfl, rfl⟩ | ⟨e, -, hbody⟩ := guarded_cases h
  · exact .kept rfl rfl
  · split at hbody
    · split at hbody
      · cases hbody
        exact .kept rfl rfl
      · split at hbody
        · next hnone =>
          cases hbody
          exact .opened rfl rfl hfresh (by simp [hnone]) rfl
        · next p hold =>
          split at hbody
          · split at hbody
            · cases hbody
              exact .kept rfl rfl
            · next hsame =>
              cases hbody
              rw [not_not] at hsame
              refine .opened rfl rfl hfresh (fun q hq => .inl ?_) rfl
              rw [hold] at hq
              rw [← Option.some.inj hq, hsame]
          · next hother =>
            split at hbody
            · cases hbody
              exact .kept rfl rfl
            · next hended =>
              cases hbody
              refine .opened rfl rfl hfresh (fun q hq => .inr ?_) rfl
              rw [hold] at hq
              obtain rfl := Option.some.inj hq
              refine ⟨hother, ?_⟩
              unfold CheckpointPhase.Terminal
              tauto
    · cases hbody
      exact .kept rfl rfl

theorem checkpointTransition_registers {checkpointId entryId : String} {phase : CheckpointPhase}
    {current : CheckpointRecord Fp} (hphase : phase = .compacted ∨ phase = .restored)
    (h : checkpointTransition clk k w checkpointId phase entryId current
      (current.advance phase entryId) = (r, k')) :
    k.Registers (.checkpointTransition w checkpointId phase entryId current
      (current.advance phase entryId)) r k' := by
  obtain ⟨-, rfl, rfl⟩ | ⟨e, -, hbody⟩ := guarded_cases h
  · exact .kept rfl rfl
  · split at hbody
    · cases hbody
      exact .kept rfl rfl
    · next t hold =>
      split_ifs at hbody with hid hstep hsame
      · cases hbody
        exact .kept rfl rfl
      · cases hbody
        exact .kept rfl rfl
      · cases hbody
        exact .kept rfl rfl
      · cases hbody
        rw [not_not] at hsame
        subst hsame
        refine .moved rfl hold ?_ rfl
        rcases hphase with rfl | rfl
        · exact .compacted (by simpa using hstep)
        · simp at hstep
          exact .restored hstep.1 hstep.2

theorem checkpointAbort_registers {session : SessionBinding} {intent : String}
    {current : CheckpointRecord Fp}
    (h : checkpointAbort clk k w session current.checkpointId current current.abort intent =
      (r, k')) :
    k.Registers (.checkpointAbort w session current.checkpointId current current.abort intent) r
      k' := by
  have hrepaired := checkpointAbort_repaired h
  generalize hop : Op.checkpointAbort w session current.checkpointId current current.abort intent =
    op at hrepaired ⊢
  cases hrepaired with
  | refused hr =>
    subst hop
    refine .kept ?_ rfl
    cases r <;> first | rfl | exact absurd trivial hr
  | leased lease hr hne => exact absurd hop.symm (hne _ _ _ _ _ _)
  | aborted hproved => exact .moved rfl hproved.checkpoint (.aborted hproved.prepared) rfl

/-- What a call of the repository does to the register. -/
theorem run_checkpoint {op : Op Fp} (hop : op.FromRepository fingerprint digest)
    (h : op.run clk k = (r, k')) : k.Registers op r k' := by
  cases op with
  | checkpointPrepare w t session =>
    obtain ⟨work, record, hcall⟩ := hop
    unfold checkpointsPrepare at hcall
    split at hcall
    · cases hcall
    · split_ifs at hcall with hargs hnames
      cases hcall
      push Not at hargs
      exact checkpointPrepare_registers ⟨hargs.1, by simpa using hargs.2.1⟩ h
  | checkpointTransition w checkpointId phase entryId expected next =>
    obtain ⟨work, checkpointId', phase', entryId', current, hcall⟩ := hop
    unfold checkpointsTransition at hcall
    split_ifs at hcall with hphase
    cases hcall
    exact checkpointTransition_registers (by tauto) h
  | checkpointAbort w session checkpointId expected next intent =>
    obtain ⟨claim, generation, current, hcall⟩ := hop
    unfold abortCompactionRepair at hcall
    split_ifs at hcall
    cases hcall
    exact checkpointAbort_registers h
  | _ =>
    obtain ⟨hwritten, hkept⟩ := run_checkpoint_frame h trivial
    exact .kept hwritten hkept

end Calls

/-! ## A run -/

section Runs

variable {chats : List String} {fingerprint : NotificationV2 → Fp}
  {digest : LegacyRepairDigest Fp} {s : Store Fp} {time : Nat} {ls : List (Label Fp)}

omit [DecidableEq Fp] in
theorem checkpointHistory_snoc (chat : String) (ls : List (Label Fp)) (l : Label Fp) :
    checkpointHistory chat (ls ++ [l]) =
      checkpointHistory chat ls ++ (l.checkpointWritten chat).toList := by
  unfold checkpointHistory
  rw [List.filterMap_append]
  cases hl : l.checkpointWritten chat <;> simp [hl]

omit [DecidableEq Fp] in
theorem PreparesFresh.init {l : Label Fp} (h : PreparesFresh (ls ++ [l])) : PreparesFresh ls :=
  fun before c r after w t session hls =>
    h before c r (after ++ [l]) w t session (by rw [hls]; simp)

/-- The checkpoint key holds the last record that the run has written, and the
records are a history. -/
theorem checkpoints_run (run : Exec (Store.Step chats fingerprint) (Store.empty time) ls s)
    (repository : ∀ c r, some (c, r) ∈ ls → c.op.FromRepository fingerprint digest)
    (fresh : PreparesFresh ls) (chat : String) :
    (s.keys chat).checkpoint = (checkpointHistory chat ls).getLast? ∧
      History CheckpointRecord.checkpointId CheckpointRecord.Next CheckpointRecord.Fresh
        (fun t => t.phase.Terminal) (checkpointHistory chat ls) := by
  induction run with
  | nil => exact ⟨rfl, .nil⟩
  | @snoc ls t u l run last ih =>
    obtain ⟨hregister, hhistory⟩ :=
      ih (fun c r hmem => repository c r (List.mem_append_left _ hmem)) fresh.init
    rw [checkpointHistory_snoc]
    cases last with
    | tick htime => simpa [Label.checkpointWritten] using ⟨hregister, hhistory⟩
    | @call c r k now hissued hstart hend hrun =>
      by_cases hchat : c.chat = chat
      · subst hchat
        have hlabel : Label.checkpointWritten c.chat (some (c, r)) = c.op.checkpointWritten r := by
          simp [Label.checkpointWritten]
        rw [hlabel, Store.keys_write]
        cases run_checkpoint (repository c r (by simp)) hrun with
        | kept hwritten hkept =>
          rw [hwritten, hkept]
          simpa using ⟨hregister, hhistory⟩
        | @moved p q hwritten hold hnext hnew =>
          rw [hwritten, hnew]
          rw [hold] at hregister
          obtain ⟨past, hpast⟩ := List.getLast?_eq_some_iff.mp hregister.symm
          rw [hpast] at hhistory ⊢
          exact ⟨by simp, hhistory.moved hnext⟩
        | @opened w session q call hwritten hfresh hold hnew =>
          rw [hwritten, hnew]
          refine ⟨by simp, ?_⟩
          rcases fresh ls c r [] w q session rfl call with hids | hlatest
          · refine hhistory.opened (fun p hp => ?_) hids hfresh
            rcases hold p (hregister.trans hp) with rfl | ⟨-, hended⟩
            · exact absurd rfl (hids p (List.mem_of_getLast? hp))
            · exact hended
          · obtain ⟨past, hpast⟩ := List.getLast?_eq_some_iff.mp hlatest
            rw [hpast] at hhistory ⊢
            exact hhistory.moved (.repeated hfresh.1)
      · have hother : Label.checkpointWritten chat (some (c, r)) = none := by
          simp [Label.checkpointWritten, hchat]
        have hkeys : ((t.write c.chat k now).keys chat).checkpoint = (t.keys chat).checkpoint := by
          show ((t.write c.chat k now).chats chat).checkpoint = (t.chats chat).checkpoint
          rw [Store.write_chats_ne t k now (Ne.symm hchat)]
        rw [hother, hkeys]
        simpa using ⟨hregister, hhistory⟩

/-- In every run of the store whose checkpoint operations come from the
repository, and whose `prepare`s bring a fresh id or repeat the latest record,
the checkpoint key of a chat holds the last record written, and of the records
written

* those of one checkpoint follow one another along `CheckpointRecord.Next`, the
  first one `prepared`,
* a later record of a checkpoint keeps the payload, the recovery binding and,
  once it is there, the compaction entry,
* at most one checkpoint is in a phase that is not terminal,
* a record of another checkpoint is `prepared`, and comes after a terminal one. -/
theorem checkpoint_phase_machine
    (run : Exec (Store.Step chats fingerprint) (Store.empty time) ls s)
    (repository : ∀ c r, some (c, r) ∈ ls → c.op.FromRepository fingerprint digest)
    (fresh : PreparesFresh ls) (chat : String) :
    (s.keys chat).checkpoint = (checkpointHistory chat ls).getLast? ∧
      (∀ id, (item CheckpointRecord.checkpointId (checkpointHistory chat ls) id).IsChain
          CheckpointRecord.Next ∧
        ∀ t ∈ (item CheckpointRecord.checkpointId (checkpointHistory chat ls) id).head?, t.Fresh) ∧
      (∀ id, (item CheckpointRecord.checkpointId (checkpointHistory chat ls) id).Pairwise
        CheckpointRecord.Keeps) ∧
      (∀ id id' t t',
        t ∈ (item CheckpointRecord.checkpointId (checkpointHistory chat ls) id).getLast? →
        t' ∈ (item CheckpointRecord.checkpointId (checkpointHistory chat ls) id').getLast? →
        ¬ t.phase.Terminal → ¬ t'.phase.Terminal → id = id') ∧
      ∀ before p t after, checkpointHistory chat ls = before ++ p :: t :: after →
        t.checkpointId ≠ p.checkpointId → p.phase.Terminal ∧ t.Fresh := by
  obtain ⟨hregister, hhistory⟩ := checkpoints_run run repository fresh chat
  have hkey : ∀ p t : CheckpointRecord Fp, p.Next t → t.checkpointId = p.checkpointId :=
    fun _ _ hnext => hnext.key
  refine ⟨hregister, fun id => ⟨hhistory.chain hkey id, hhistory.first hkey id⟩, fun id => ?_, ?_, ?_⟩
  · have hkeeps := (hhistory.chain hkey id).imp fun _ _ hnext => hnext.keeps
    exact hkeeps.pairwise
  · intro id id' t t' ht ht' hopen hopen'
    exact hhistory.one_open hkey ht ht' hopen hopen'
  · intro before p t after hsplit hne
    exact hhistory.boundary hkey hsplit hne

end Runs

/-! ## A sample checkpoint -/

/-- The work of the sample event's worker. -/
def sampleClaim : ClaimedWork where
  streamId := ⟨3, 0⟩
  event := sampleEvent
  ownership := ⟨⟨"app", "1", 102⟩, ⟨"worker", "1", 54⟩⟩

/-- The checkpoint with its compaction entry. -/
def compactedSample : CheckpointRecord NotificationV2 := sampleCheckpoint.advance .compacted "entry-1"

/-- A worker prepares a checkpoint twice, and brings it to its end. -/
def checkpointCalls : List (String × Nat × Op NotificationV2) :=
  [("1@g.us", 1, .init "1@g.us"), ("1@g.us", 2, .appAcquire "app" 100),
    ("1@g.us", 3, .accept "0" sampleEvent sampleEvent false "0"),
    ("1@g.us", 4, .claim ⟨"app", "1", "worker", 50, 10⟩),
    ("1@g.us", 5, .bind (argsFor id sampleClaim) sampleSession),
    ("1@g.us", 6, .checkpointPrepare (argsFor id sampleClaim) sampleCheckpoint sampleSession),
    ("1@g.us", 7, .checkpointPrepare (argsFor id sampleClaim) sampleCheckpoint sampleSession),
    ("1@g.us", 8, .checkpointTransition (argsFor id sampleClaim) "checkpoint-1" .compacted "entry-1"
      sampleCheckpoint compactedSample),
    ("1@g.us", 9, .checkpointTransition (argsFor id sampleClaim) "checkpoint-1" .restored "entry-1"
      compactedSample (compactedSample.advance .restored "entry-1"))]

theorem checkpointCalls_driven : Driven ["1@g.us"] id 0 checkpointCalls := by
  simp [checkpointCalls, Driven, Call.Issued, sampleEvent]

example : checkpointHistory "1@g.us" ((Store.empty 0).drive checkpointCalls).1 =
    [sampleCheckpoint, sampleCheckpoint, compactedSample,
      compactedSample.advance .restored "entry-1"] := by decide

theorem checkpointCalls_repository (c : Call NotificationV2) (r : Reply NotificationV2)
    (h : some (c, r) ∈ ((Store.empty 0).drive checkpointCalls).1) :
    c.op.FromRepository id sampleDigest := by
  simp only [checkpointCalls, Store.drive, List.mem_cons, Option.some.injEq, Prod.mk.injEq,
    List.not_mem_nil, or_false] at h
  rcases h with ⟨rfl, -⟩ | ⟨rfl, -⟩ | ⟨rfl, -⟩ | ⟨rfl, -⟩ | ⟨rfl, -⟩ | ⟨rfl, -⟩ | ⟨rfl, -⟩ |
    ⟨rfl, -⟩ | ⟨rfl, -⟩
  iterate 5 exact trivial
  · exact ⟨sampleClaim, sampleCheckpoint, rfl⟩
  · exact ⟨sampleClaim, sampleCheckpoint, rfl⟩
  · exact ⟨sampleClaim, "checkpoint-1", .compacted, "entry-1", sampleCheckpoint, rfl⟩
  · exact ⟨sampleClaim, "checkpoint-1", .restored, "entry-1", compactedSample, rfl⟩

theorem checkpointCalls_fresh : PreparesFresh ((Store.empty 0).drive checkpointCalls).1 := by
  intro before c r after w t session hls hop
  -- The `prepare`s of the run are its sixth and its seventh call.
  have hops : (((Store.empty 0).drive checkpointCalls).1)[before.length]? = some (some (c, r)) := by
    rw [hls]
    simp
  have hbefore : before = (((Store.empty 0).drive checkpointCalls).1).take before.length := by
    rw [hls]
    simp
  generalize before.length = i at hops hbefore
  match i with
  | 0 | 1 | 2 | 3 | 4 | 7 | 8 => cases hops; cases hop
  | 5 =>
    cases hops
    cases hop
    left
    rw [hbefore]
    decide
  | 6 =>
    cases hops
    cases hop
    right
    rw [hbefore]
    rfl
  | n + 9 => cases hops

theorem checkpoint_phase_machine_of_checkpointCalls :
    (((Store.empty 0).drive checkpointCalls).2.keys "1@g.us").checkpoint =
      (checkpointHistory "1@g.us" ((Store.empty 0).drive checkpointCalls).1).getLast? :=
  (checkpoint_phase_machine (drive_exec checkpointCalls_driven) checkpointCalls_repository
    checkpointCalls_fresh "1@g.us").1

end WhatsAppMcp.Controller.Redis
