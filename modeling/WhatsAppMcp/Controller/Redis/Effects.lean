import WhatsAppMcp.Controller.Redis.Scripts

/-!
# What one script can do

The laws of the session store speak of a part of the keys: the two leases, the
active events with their sequences, identities and stream entries, the cursor
and the two revisions, the turn event, the session binding and the tool
journal.  `Core` is that part, and `Effect` lists the ways in which one call
can change it, with what the script has checked by then.

`run_effect` is the one place where the scripts are opened.  Every invariant of
the later modules is a case analysis on `Effect`.

`observe` names the calls that the claims count: a successful accept,
completion or begin of a turn, and the grant of a lease.
-/

namespace WhatsAppMcp.Controller.Redis

variable {Fp : Type} [DecidableEq Fp]

/-! ## The observed part of the keys -/

/-- The part of the keys that the laws speak of.  A counter is the text that a
script reads, with its default. -/
structure Core (Fp : Type) where
  app : AppHash
  identities : Hash (Identity Fp)
  cursor : String
  revision : String
  session : Option SessionBinding
  turnEvent : Option String
  lease : LeaseHash
  entries : List (StreamId × String)
  lastId : StreamId
  events : Hash (EventRecord Fp)
  seqs : Hash String
  tools : Hash (JournalRecord Fp)

/-- The core of the keys of one call. -/
def Keys.core (k : Keys Fp) : Core Fp where
  app := k.app
  identities := k.identities
  cursor := k.cursor
  revision := counter k.state.revision
  session := k.state.session
  turnEvent := k.state.turnEvent
  lease := k.lease
  entries := k.stream.entries
  lastId := k.stream.lastId
  events := k.events
  seqs := k.seqs
  tools := k.tools

omit [DecidableEq Fp] in
@[simp] theorem barrier_core (k : Keys Fp) : k.barrier.core = k.core := rfl

omit [DecidableEq Fp] in
/-- A command that moves only the group leaves the core. -/
theorem core_of_stream (k : Keys Fp) (lease : LeaseHash) {stream : RedisStream.Stream String}
    (hentries : stream.entries = k.stream.entries) (hlast : stream.lastId = k.stream.lastId) :
    ({ k with stream := stream, lease := lease } : Keys Fp).core = { k.core with lease := lease } := by
  simp only [Keys.core, hentries, hlast]
  rfl

/-! ## Observed calls -/

/-- The calls the laws count. -/
inductive Observation (Fp : Type) where
  | accepted (event : NotificationV2) (fp : Fp)
  | completed (w : WorkArgs Fp)
  | begun (w : WorkArgs Fp)
  | appGranted (owner epoch : String)
  | granted (w : WorkArgs Fp)

/-- The arguments that `argsFor` builds from the work of a granted claim. -/
def grantedArgs (fingerprint : NotificationV2 → Fp) (appOwner appEpoch chatOwner epoch : String)
    (streamId : StreamId) (raw : NotificationV2) : WorkArgs Fp :=
  ⟨appOwner, appEpoch, chatOwner, epoch, raw.eventId, streamId, fingerprint raw⟩

/-- What a call with this reply counts as. -/
def observe (fingerprint : NotificationV2 → Fp) : Op Fp → Reply Fp → Option (Observation Fp)
  | .accept _ event fp _ _, .accepted => some (.accepted event fp)
  | .complete w _ _, .ok => some (.completed w)
  | .beginTurn w, .ok => some (.begun w)
  | .appAcquire owner _, .fence epoch _ => some (.appGranted owner epoch)
  | .claim a, .claimed id raw epoch _ =>
    some (.granted (grantedArgs fingerprint a.appOwner a.appEpoch a.chatOwner epoch id raw))
  | .repairIntent a, .repairing id raw _ _ epoch _ =>
    some (.granted (grantedArgs fingerprint a.appOwner a.appEpoch a.chatOwner epoch id raw))
  | .repairClaim a _, .repairing id raw _ _ epoch _ =>
    some (.granted (grantedArgs fingerprint a.appOwner a.appEpoch a.chatOwner epoch id raw))
  | _, _ => none

/-! ## Effects -/

/-- The chat lease is live under this application fence, as `claim` and the
repair scripts test it. -/
def Keys.Leased (k : Keys Fp) (clk : Clock) (appOwner appEpoch : String) : Prop :=
  k.lease.SameApp appOwner appEpoch ∧ clk.now 1 < k.lease.untilMs.getD 0

/-- The scripts that give up the chat lease and keep its event. -/
def Op.Releases : Op Fp → Prop
  | .repairReleaseFence .. | .repairRelease .. | .checkpointAbort .. => True
  | _ => False

/-- What a call `op` with reply `r` makes of the core of the keys `k`. -/
inductive Effect (fingerprint : NotificationV2 → Fp) (clk : Clock) (k : Keys Fp) :
    Op Fp → Reply Fp → Core Fp → Prop
  /-- The core stays. -/
  | quiet {op : Op Fp} {r : Reply Fp} (hobs : observe fingerprint op r = none) :
      Effect fingerprint clk k op r k.core
  /-- A new event becomes active. -/
  | accepted {revision identityRevision : String} {event : NotificationV2} {fp : Fp}
      (hrev : counter k.state.revision = revision)
      (hidRev : counter k.app.identityRevision = identityRevision)
      (hident : ∀ i, k.identities.lookup event.eventId = some i → i = ⟨event.canonicalChatJid, fp⟩)
      (hnew : k.events.lookup event.eventId = none)
      (hseq : ∀ other, k.seqs.lookup event.chatSequence.repr = some other → other = event.eventId)
      (hless : Decimal.less k.cursor event.chatSequence.repr = true) :
      Effect fingerprint clk k (.accept revision event fp false identityRevision) .accepted
        { k.core with
          entries := k.stream.entries ++
            [(RedisStream.nextId k.stream.lastId (clk.now 0), event.eventId)]
          lastId := RedisStream.nextId k.stream.lastId (clk.now 0)
          events := k.events.insert event.eventId
            ⟨RedisStream.nextId k.stream.lastId (clk.now 0), fp, event.chatSequence.repr, event⟩
          seqs := k.seqs.insert event.chatSequence.repr event.eventId
          identities := k.identities.insert event.eventId ⟨event.canonicalChatJid, fp⟩ }
  /-- A new application lease. -/
  | appGranted {owner : String} {leaseMs : Nat}
      (hexpired : k.app.untilMs.getD 0 ≤ clk.now 0)
      (hshort : (Decimal.inc (counter k.app.epoch)).length ≤ 32) :
      Effect fingerprint clk k (.appAcquire owner leaseMs)
        (.fence (Decimal.inc (counter k.app.epoch)) (clk.now 1 + leaseMs))
        { k.core with
          app := { k.app with owner := some owner, epoch := bump k.app.epoch,
                              untilMs := some (clk.now 1 + leaseMs) } }
  /-- The live application lease is extended. -/
  | appRenewed {owner epoch : String} {leaseMs : Nat}
      (halive : k.app.Alive owner epoch (clk.now 0)) :
      Effect fingerprint clk k (.appRenew owner epoch leaseMs)
        (.fence epoch (clk.now 1 + leaseMs))
        { k.core with app := { k.app with untilMs := some (clk.now 1 + leaseMs) } }
  /-- The live application lease is given up. -/
  | appReleased {owner epoch : String} (halive : k.app.Alive owner epoch (clk.now 0)) :
      Effect fingerprint clk k (.appRelease owner epoch) .ok
        { k.core with app := { k.app with owner := none, untilMs := none } }
  /-- A new chat lease, for the event at the head. -/
  | granted {op : Op Fp} {r : Reply Fp} {w : WorkArgs Fp} {event : String} {e : EventRecord Fp}
      (untilMs : Nat) (intent : Option String)
      (hobs : observe fingerprint op r = some (.granted w))
      (halive : k.app.Alive w.appOwner w.appEpoch (clk.now 0))
      (hfree : ¬ k.Leased clk w.appOwner w.appEpoch)
      (hhead : k.seqs.lookup (Decimal.inc k.cursor) = some event)
      (hevent : k.events.lookup event = some e)
      (hepoch : w.chatEpoch = Decimal.inc (counter k.lease.epoch))
      (hid : w.streamId = e.id) (hraw : w.eventId = e.raw.eventId)
      (hfp : w.fingerprint = fingerprint e.raw)
      (htools : ∀ record ∈ k.tools.vals, record.state.status = .confirmed) :
      Effect fingerprint clk k op r
        { k.core with
          lease := { k.lease.grant w.chatOwner w.chatEpoch w.appOwner w.appEpoch event with
            untilMs := some untilMs, repairIntent := intent } }
  /-- The caller's chat lease is extended. -/
  | renewed {w : WorkArgs Fp} {leaseMs : Nat} {e : EventRecord Fp} (hwork : k.work clk w = some e) :
      Effect fingerprint clk k (.renew w leaseMs) (.fence w.chatEpoch (clk.now 2 + leaseMs))
        { k.core with lease := { k.lease with untilMs := some (clk.now 2 + leaseMs) } }
  /-- The chat lease is given up. -/
  | released {op : Op Fp} (hop : op.Releases) :
      Effect fingerprint clk k op .ok
        { k.core with lease := { k.lease.release with repairIntent := none } }
  /-- The turn of the head event begins. -/
  | begun {w : WorkArgs Fp} {e : EventRecord Fp} (hwork : k.work clk w = some e)
      (hturn : k.state.turnEvent = none) :
      Effect fingerprint clk k (.beginTurn w) .ok { k.core with turnEvent := some w.eventId }
  /-- The chat is bound to a session. -/
  | bound {w : WorkArgs Fp} {session : SessionBinding} {e : EventRecord Fp}
      (hwork : k.work clk w = some e) (hold : ∀ old, k.state.session = some old → old = session) :
      Effect fingerprint clk k (.bind w session) .ok { k.core with session := some session }
  /-- A claim finds unsettled attempts and pauses the chat. -/
  | swept {a : ClaimArgs} (hopen : (sweep k.tools).2 = true) :
      Effect fingerprint clk k (.claim a) .paused { k.core with tools := (sweep k.tools).1 }
  /-- An attempt is recorded in the older journal. -/
  | journalled {w : WorkArgs Fp} {attemptId : String} {state : MutationState} {e : EventRecord Fp}
      (hwork : k.work clk w = some e) (hnew : k.tools.lookup attemptId = none) :
      Effect fingerprint clk k (.journalBegin w attemptId state) .ok
        { k.core with tools := k.tools.insert attemptId (.legacy state) }
  /-- An attempt is recorded in the native journal. -/
  | opened {w : WorkArgs Fp} {attemptId : String} {record : JournalEnvelope Fp}
      {session : SessionBinding} {e : EventRecord Fp}
      (hwork : k.work clk w = some e) (hnew : k.tools.lookup attemptId = none)
      (hid : record.state.attemptId = attemptId) (hevent : record.state.eventId = w.eventId)
      (hfp : record.eventFingerprint = w.fingerprint)
      (hstatus : record.state.status = .attempting) :
      Effect fingerprint clk k (.nativeJournalBegin w attemptId record session) .ok
        { k.core with tools := k.tools.insert attemptId (.native record) }
  /-- An attempt is settled. -/
  | settled {w : WorkArgs Fp} {attemptId : String} {settlement : Settlement}
      {record : JournalRecord Fp} {e : EventRecord Fp}
      (hwork : k.work clk w = some e) (hrecord : k.tools.lookup attemptId = some record)
      (hevent : record.state.eventId = w.eventId) (hstatus : record.state.status = .attempting) :
      Effect fingerprint clk k (.journalTransition w attemptId settlement) .ok
        { k.core with
          tools := k.tools.insert attemptId (record.withState (record.state.settle settlement)) }
  /-- The head event is completed. -/
  | completed {w : WorkArgs Fp} {session : SessionBinding} {sends : List ConfirmedSend}
      {e : EventRecord Fp} (hwork : k.work clk w = some e)
      (hseq : e.seq = Decimal.inc k.cursor) (hsession : k.state.session = some session)
      (htools : ∀ record ∈ k.tools.vals, Settled record w sends) :
      Effect fingerprint clk k (.complete w session sends) .ok
        { k.core with
          app := { k.app with identityRevision := bump k.app.identityRevision }
          identities := k.identities.erase w.eventId
          cursor := e.seq
          revision := Decimal.inc (counter k.state.revision)
          turnEvent := none
          lease := k.lease.release
          entries := k.stream.entries.filter (fun entry => entry.1 ≠ e.id)
          events := k.events.erase w.eventId
          seqs := k.seqs.erase e.seq
          tools := ∅ }

/-! ## Every call has one of the effects -/

section Inversion

variable {fingerprint : NotificationV2 → Fp} {clk : Clock} {k k' : Keys Fp} {r : Reply Fp}

theorem guarded_cases {w : WorkArgs Fp} {body : EventRecord Fp → Reply Fp × Keys Fp}
    (h : guarded clk k w body = (r, k')) :
    (k.work clk w = none ∧ r = .lost ∧ k' = k) ∨
      ∃ e, k.work clk w = some e ∧ body e = (r, k') := by
  unfold guarded at h
  split at h
  · next hwork => exact Or.inl ⟨hwork, by cases h; exact ⟨rfl, rfl⟩⟩
  · next e hwork => exact Or.inr ⟨e, hwork, h⟩

/-- A call that leaves the core and is not counted is quiet. -/
theorem Effect.of_core_eq {op : Op Fp} {r : Reply Fp} {k' : Keys Fp}
    (hobs : observe fingerprint op r = none) (hcore : k'.core = k.core) :
    Effect fingerprint clk k op r k'.core :=
  hcore ▸ .quiet hobs

omit [DecidableEq Fp] in
theorem cursor_of_chat_eq (chat : String) (hempty : k.state = .empty) :
    ({ k with state := { k.state with
        cursor := some "0", revision := some "0", chat := some chat } } : Keys Fp).core = k.core := by
  simp only [Keys.core, ChatKeys.cursor, hempty, StateHash.empty, counter, Option.getD]

theorem init_effect {chat : String} (h : init k chat = (r, k')) :
    Effect fingerprint clk k (.init chat) r k'.core := by
  unfold init at h
  by_cases hempty : k.state = .empty
  · simp only [hempty, if_true] at h
    split_ifs at h <;> obtain ⟨rfl, rfl⟩ := Prod.mk.inj h
    · exact absurd rfl ‹_›
    · refine .of_core_eq rfl ?_
      rw [barrier_core, ← cursor_of_chat_eq chat hempty, hempty]
      rfl
  · simp only [hempty, if_false] at h
    split_ifs at h <;> obtain ⟨rfl, rfl⟩ := Prod.mk.inj h
    · exact .of_core_eq rfl rfl
    · exact .of_core_eq rfl rfl

theorem accept_effect {revision identityRevision : String} {event : NotificationV2} {fp : Fp}
    {completed : Bool}
    (h : accept clk k revision event fp completed identityRevision = (r, k')) :
    Effect fingerprint clk k (.accept revision event fp completed identityRevision) r k'.core := by
  unfold accept at h
  simp only at h
  split at h
  · obtain ⟨rfl, rfl⟩ := Prod.mk.inj h
    exact .of_core_eq rfl rfl
  next hretry =>
  split at h
  · obtain ⟨rfl, rfl⟩ := Prod.mk.inj h
    exact .of_core_eq rfl rfl
  next hident =>
  split at h
  · split at h <;> obtain ⟨rfl, rfl⟩ := Prod.mk.inj h <;> exact .of_core_eq rfl rfl
  next hnew =>
  split at h
  · obtain ⟨rfl, rfl⟩ := Prod.mk.inj h
    exact .of_core_eq rfl rfl
  next hseq =>
  split at h
  · obtain ⟨rfl, rfl⟩ := Prod.mk.inj h
    exact .of_core_eq rfl rfl
  next hcompleted =>
  split at h <;> obtain ⟨rfl, rfl⟩ := Prod.mk.inj h
  · exact .of_core_eq rfl rfl
  · next hless =>
    obtain rfl : completed = false := by simpa using hcompleted
    push Not at hretry hident hseq
    exact .accepted hretry.1 hretry.2 hident hnew hseq (by simpa using hless)

theorem appAcquire_effect {owner : String} {leaseMs : Nat}
    (h : appAcquire clk k owner leaseMs = (r, k')) :
    Effect fingerprint clk k (.appAcquire owner leaseMs) r k'.core := by
  unfold appAcquire at h
  simp only at h
  split at h
  · obtain ⟨rfl, rfl⟩ := Prod.mk.inj h
    exact .of_core_eq rfl rfl
  next hbusy =>
  split at h <;> obtain ⟨rfl, rfl⟩ := Prod.mk.inj h
  · exact .of_core_eq rfl rfl
  · exact .appGranted (not_lt.mp hbusy) (not_lt.mp ‹_›)

theorem appRenew_effect {owner epoch : String} {leaseMs : Nat}
    (h : appRenew clk k owner epoch leaseMs = (r, k')) :
    Effect fingerprint clk k (.appRenew owner epoch leaseMs) r k'.core := by
  unfold appRenew at h
  simp only at h
  split at h <;> obtain ⟨rfl, rfl⟩ := Prod.mk.inj h
  · exact .of_core_eq rfl rfl
  · exact .appRenewed (not_not.mp ‹_›)

theorem appRelease_effect {owner epoch : String} (h : appRelease clk k owner epoch = (r, k')) :
    Effect fingerprint clk k (.appRelease owner epoch) r k'.core := by
  unfold appRelease at h
  split at h <;> obtain ⟨rfl, rfl⟩ := Prod.mk.inj h
  · exact .of_core_eq rfl rfl
  · exact .appReleased (not_not.mp ‹_›)

/-! ### Claims -/

omit [DecidableEq Fp] in
theorem sweepStep_snd (acc : Hash (JournalRecord Fp) × Bool) (record : JournalRecord Fp) :
    (sweepStep acc record).2 = true ↔ acc.2 = true ∨ record.state.status ≠ .confirmed := by
  unfold sweepStep
  split_ifs with hc
  · simp [hc]
  · cases record <;> exact ⟨fun _ => Or.inr hc, fun _ => rfl⟩

omit [DecidableEq Fp] in
/-- The flag of the sweep is raised exactly when a record is not confirmed. -/
theorem sweep_snd {tools : Hash (JournalRecord Fp)} :
    (sweep tools).2 = true ↔ ∃ record ∈ tools.vals, record.state.status ≠ .confirmed := by
  have hfold : ∀ (l : List (JournalRecord Fp)) (acc : Hash (JournalRecord Fp) × Bool),
      (l.foldl sweepStep acc).2 = true ↔
        acc.2 = true ∨ ∃ record ∈ l, record.state.status ≠ .confirmed := by
    intro l
    induction l with
    | nil => intro acc; simp
    | cons record l ih =>
      intro acc
      rw [List.foldl_cons, ih, sweepStep_snd]
      simp [or_assoc]
  rw [sweep, hfold]
  simp

/-- The lease a claim or a repair script grants, from what the script has checked. -/
theorem granted_effect {op : Op Fp} {w : WorkArgs Fp} {event : String} {e : EventRecord Fp}
    {untilMs : Nat} {lease : LeaseHash} (intent : Option String)
    (hobs : observe fingerprint op r = some (.granted w))
    (halive : k.app.Alive w.appOwner w.appEpoch (clk.now 0))
    (hfree : ¬ k.Leased clk w.appOwner w.appEpoch)
    (hhead : k.seqs.lookup (Decimal.inc k.cursor) = some event)
    (hevent : k.events.lookup event = some e)
    (hepoch : w.chatEpoch = Decimal.inc (counter k.lease.epoch))
    (hid : w.streamId = e.id) (hraw : w.eventId = e.raw.eventId)
    (hfp : w.fingerprint = fingerprint e.raw)
    (htools : ∀ record ∈ k.tools.vals, record.state.status = .confirmed)
    (hlease : lease = { k.lease.grant w.chatOwner w.chatEpoch w.appOwner w.appEpoch event with
      untilMs := some untilMs, repairIntent := intent })
    (hcore : k'.core = { k.core with lease := lease }) :
    Effect fingerprint clk k op r k'.core := by
  rw [hcore, hlease]
  exact .granted untilMs intent hobs halive hfree hhead hevent hepoch hid hraw hfp htools

theorem claim_effect {a : ClaimArgs} (h : claim clk k a = (r, k')) :
    Effect fingerprint clk k (.claim a) r k'.core := by
  unfold claim at h
  simp only at h
  split at h
  · obtain ⟨rfl, rfl⟩ := Prod.mk.inj h
    exact .of_core_eq rfl rfl
  next halive =>
  split at h
  · obtain ⟨rfl, rfl⟩ := Prod.mk.inj h
    exact .of_core_eq rfl rfl
  split at h
  · obtain ⟨rfl, rfl⟩ := Prod.mk.inj h
    exact .of_core_eq rfl rfl
  next hfree =>
  split at h
  · obtain ⟨rfl, rfl⟩ := Prod.mk.inj h
    exact .swept ‹_›
  next hopen =>
  split at h
  · split at h
    · obtain ⟨rfl, rfl⟩ := Prod.mk.inj h
      exact .of_core_eq rfl rfl
    · split at h <;> obtain ⟨rfl, rfl⟩ := Prod.mk.inj h <;> exact .of_core_eq rfl rfl
  next event hhead =>
  split at h
  · obtain ⟨rfl, rfl⟩ := Prod.mk.inj h
    exact .of_core_eq rfl rfl
  next e hevent =>
  split at h
  · obtain ⟨rfl, rfl⟩ := Prod.mk.inj h
    exact .of_core_eq rfl rfl
  split at h
  · obtain ⟨rfl, rfl⟩ := Prod.mk.inj h
    exact .of_core_eq rfl rfl
  · next stream hclaim =>
    obtain ⟨rfl, rfl⟩ := Prod.mk.inj h
    obtain ⟨hentries, hlast, -⟩ := RedisStream.xclaim_frame hclaim
    exact .of_core_eq rfl (core_of_stream k k.lease hentries hlast)
  · next stream hclaim =>
    obtain ⟨rfl, rfl⟩ := Prod.mk.inj h
    obtain ⟨hentries, hlast, -⟩ := RedisStream.xclaim_frame hclaim
    refine granted_effect k.lease.repairIntent rfl (not_not.mp halive) hfree hhead
      hevent rfl rfl rfl rfl ?_ rfl
      (core_of_stream k _ hentries hlast)
    intro record hmem
    by_contra hne
    exact hopen (sweep_snd.mpr ⟨record, hmem, hne⟩)

theorem recoverPel_effect {a : RecoverArgs} (h : recoverPel clk k a = (r, k')) :
    Effect fingerprint clk k (.recoverPel a) r k'.core := by
  unfold recoverPel at h
  split at h
  · obtain ⟨rfl, rfl⟩ := Prod.mk.inj h
    exact .of_core_eq rfl rfl
  split at h
  · obtain ⟨rfl, rfl⟩ := Prod.mk.inj h
    exact .of_core_eq rfl rfl
  split at h
  · obtain ⟨rfl, rfl⟩ := Prod.mk.inj h
    exact .of_core_eq rfl rfl
  split at h
  · obtain ⟨rfl, rfl⟩ := Prod.mk.inj h
    exact .of_core_eq rfl rfl
  · next hclaim =>
    obtain ⟨rfl, rfl⟩ := Prod.mk.inj h
    obtain ⟨hentries, hlast⟩ := RedisStream.xautoclaim_frame hclaim
    exact .of_core_eq rfl (core_of_stream k k.lease hentries hlast)

/-! ### Repairs -/

/-- What the evidence of a repair says about the keys. -/
theorem repairEvidence_ok {chat intent : String} {proof : RepairProof Fp}
    (h : repairEvidence k chat intent = .ok proof) :
    k.tools.entries = [] ∧ k.seqs.lookup (Decimal.inc k.cursor) = some proof.event ∧
      k.events.lookup proof.event = some proof.e := by
  unfold repairEvidence at h
  repeat' split at h
  all_goals first
    | contradiction
    | (cases h; simp_all)

/-- The two repair scripts grant the lease of the event at the head. -/
theorem repairing_effect {op : Op Fp} {a : RepairArgs} {evidence : String}
    {proof : RepairProof Fp} {untilMs : Nat} {intent : Option String}
    (hobs : observe fingerprint op
        (.repairing proof.e.id proof.e.raw proof.session proof.prepared
          (Decimal.inc (counter k.lease.epoch)) untilMs) =
      some (.granted (grantedArgs fingerprint a.appOwner a.appEpoch a.chatOwner
        (Decimal.inc (counter k.lease.epoch)) proof.e.id proof.e.raw)))
    (halive : k.app.Alive a.appOwner a.appEpoch (clk.now 0))
    (hfree : ¬ k.Leased clk a.appOwner a.appEpoch)
    (hproof : repairEvidence k a.chat evidence = .ok proof)
    (hcore : k'.core = { k.core with
      lease := { k.lease.grant a.chatOwner (Decimal.inc (counter k.lease.epoch)) a.appOwner
        a.appEpoch proof.event with untilMs := some untilMs, repairIntent := intent } }) :
    Effect fingerprint clk k op
      (.repairing proof.e.id proof.e.raw proof.session proof.prepared
        (Decimal.inc (counter k.lease.epoch)) untilMs) k'.core := by
  obtain ⟨htools, hhead, hevent⟩ := repairEvidence_ok hproof
  refine granted_effect _ hobs halive hfree hhead hevent rfl rfl rfl rfl ?_ rfl hcore
  intro record hmem
  simp [Hash.vals, htools] at hmem

theorem repairIntent_effect {a : RepairArgs} (h : repairIntent clk k a = (r, k')) :
    Effect fingerprint clk k (.repairIntent a) r k'.core := by
  unfold repairIntent at h
  simp only at h
  split at h
  · obtain ⟨rfl, rfl⟩ := Prod.mk.inj h
    exact .of_core_eq rfl rfl
  next halive =>
  split at h
  · obtain ⟨rfl, rfl⟩ := Prod.mk.inj h
    exact .of_core_eq rfl rfl
  next hfree =>
  split at h
  · next reason _ =>
    obtain ⟨rfl, rfl⟩ := Prod.mk.inj h
    exact .of_core_eq (by cases reason <;> rfl) rfl
  next proof hproof =>
  split at h
  · obtain ⟨rfl, rfl⟩ := Prod.mk.inj h
    exact .of_core_eq rfl rfl
  split at h <;> obtain ⟨rfl, rfl⟩ := Prod.mk.inj h
  · exact .of_core_eq rfl rfl
  · exact repairing_effect rfl (not_not.mp halive) hfree hproof rfl

theorem repairClaim_effect {a : RepairArgs} {intent : String}
    (h : repairClaim clk k a intent = (r, k')) :
    Effect fingerprint clk k (.repairClaim a intent) r k'.core := by
  unfold repairClaim at h
  simp only at h
  split at h
  · obtain ⟨rfl, rfl⟩ := Prod.mk.inj h
    exact .of_core_eq rfl rfl
  next halive =>
  split at h
  · obtain ⟨rfl, rfl⟩ := Prod.mk.inj h
    exact .of_core_eq rfl rfl
  next hfree =>
  split at h
  · next reason _ =>
    obtain ⟨rfl, rfl⟩ := Prod.mk.inj h
    exact .of_core_eq (by cases reason <;> rfl) rfl
  next proof hproof =>
  split at h <;> obtain ⟨rfl, rfl⟩ := Prod.mk.inj h
  · exact .of_core_eq rfl rfl
  · exact repairing_effect rfl (not_not.mp halive) hfree hproof rfl

theorem repairReleaseFence_effect {appOwner appEpoch chatOwner chatEpoch : String}
    (h : repairReleaseFence clk k appOwner appEpoch chatOwner chatEpoch = (r, k')) :
    Effect fingerprint clk k (.repairReleaseFence appOwner appEpoch chatOwner chatEpoch) r
      k'.core := by
  unfold repairReleaseFence at h
  split at h <;> obtain ⟨rfl, rfl⟩ := Prod.mk.inj h
  · exact .of_core_eq rfl rfl
  · exact .released trivial

theorem repairRelease_effect {w : WorkArgs Fp} {session : SessionBinding}
    (h : repairRelease clk k w session = (r, k')) :
    Effect fingerprint clk k (.repairRelease w session) r k'.core := by
  obtain ⟨-, rfl, rfl⟩ | ⟨e, -, hbody⟩ := guarded_cases h
  · exact .of_core_eq rfl rfl
  · split at hbody <;> obtain ⟨rfl, rfl⟩ := Prod.mk.inj hbody
    · exact .of_core_eq rfl rfl
    · exact .released trivial

/-! ### Owned operations -/

theorem checkWork_effect {w : WorkArgs Fp} (h : checkWork clk k w = (r, k')) :
    Effect fingerprint clk k (.checkWork w) r k'.core := by
  obtain ⟨-, rfl, rfl⟩ | ⟨e, -, hbody⟩ := guarded_cases h
  · exact .of_core_eq rfl rfl
  · obtain ⟨rfl, rfl⟩ := Prod.mk.inj hbody
    exact .of_core_eq rfl rfl

theorem turnState_effect {w : WorkArgs Fp} (h : turnState clk k w = (r, k')) :
    Effect fingerprint clk k (.turnState w) r k'.core := by
  obtain ⟨-, rfl, rfl⟩ | ⟨e, -, hbody⟩ := guarded_cases h
  · exact .of_core_eq rfl rfl
  · obtain ⟨rfl, rfl⟩ := Prod.mk.inj hbody
    exact .of_core_eq rfl rfl

theorem beginTurn_effect {w : WorkArgs Fp} (h : beginTurn clk k w = (r, k')) :
    Effect fingerprint clk k (.beginTurn w) r k'.core := by
  obtain ⟨-, rfl, rfl⟩ | ⟨e, hwork, hbody⟩ := guarded_cases h
  · exact .of_core_eq rfl rfl
  · split at hbody <;> obtain ⟨rfl, rfl⟩ := Prod.mk.inj hbody
    · exact .of_core_eq rfl rfl
    · exact .begun hwork (Option.not_isSome_iff_eq_none.mp ‹_›)

theorem renew_effect {w : WorkArgs Fp} {leaseMs : Nat} (h : renew clk k w leaseMs = (r, k')) :
    Effect fingerprint clk k (.renew w leaseMs) r k'.core := by
  obtain ⟨-, rfl, rfl⟩ | ⟨e, hwork, hbody⟩ := guarded_cases h
  · exact .of_core_eq rfl rfl
  · obtain ⟨rfl, rfl⟩ := Prod.mk.inj hbody
    exact .renewed hwork

theorem pause_effect {w : WorkArgs Fp} {reason : PauseReason}
    (h : pause clk k w reason = (r, k')) :
    Effect fingerprint clk k (.pause w reason) r k'.core := by
  obtain ⟨-, rfl, rfl⟩ | ⟨e, -, hbody⟩ := guarded_cases h
  · exact .of_core_eq rfl rfl
  · obtain ⟨rfl, rfl⟩ := Prod.mk.inj hbody
    exact .of_core_eq rfl rfl

theorem bind_effect {w : WorkArgs Fp} {session : SessionBinding}
    (h : bind clk k w session = (r, k')) :
    Effect fingerprint clk k (.bind w session) r k'.core := by
  obtain ⟨-, rfl, rfl⟩ | ⟨e, hwork, hbody⟩ := guarded_cases h
  · exact .of_core_eq rfl rfl
  · split at hbody <;> obtain ⟨rfl, rfl⟩ := Prod.mk.inj hbody
    · exact .of_core_eq rfl rfl
    · next hold =>
      push Not at hold
      exact .bound hwork hold

theorem complete_effect {w : WorkArgs Fp} {session : SessionBinding} {sends : List ConfirmedSend}
    (h : complete clk k w session sends = (r, k')) :
    Effect fingerprint clk k (.complete w session sends) r k'.core := by
  obtain ⟨-, rfl, rfl⟩ | ⟨e, hwork, hbody⟩ := guarded_cases h
  · exact .of_core_eq rfl rfl
  · split at hbody
    · obtain ⟨rfl, rfl⟩ := Prod.mk.inj hbody
      exact .of_core_eq rfl rfl
    next hhead =>
    split at hbody <;> obtain ⟨rfl, rfl⟩ := Prod.mk.inj hbody
    · exact .of_core_eq rfl rfl
    · next htools =>
      push Not at hhead htools
      exact .completed hwork hhead.1 hhead.2 htools

/-! ### The journal -/

theorem journalBegin_effect {w : WorkArgs Fp} {attemptId : String} {state : MutationState}
    (h : journalBegin clk k w attemptId state = (r, k')) :
    Effect fingerprint clk k (.journalBegin w attemptId state) r k'.core := by
  obtain ⟨-, rfl, rfl⟩ | ⟨e, hwork, hbody⟩ := guarded_cases h
  · exact .of_core_eq rfl rfl
  · split at hbody <;> obtain ⟨rfl, rfl⟩ := Prod.mk.inj hbody
    · exact .of_core_eq rfl rfl
    · exact .journalled hwork (Option.not_isSome_iff_eq_none.mp ‹_›)

theorem nativeJournalBegin_effect {w : WorkArgs Fp} {attemptId : String}
    {record : JournalEnvelope Fp} {session : SessionBinding}
    (h : nativeJournalBegin clk k w attemptId record session = (r, k')) :
    Effect fingerprint clk k (.nativeJournalBegin w attemptId record session) r k'.core := by
  obtain ⟨-, rfl, rfl⟩ | ⟨e, hwork, hbody⟩ := guarded_cases h
  · exact .of_core_eq rfl rfl
  · split at hbody
    · obtain ⟨rfl, rfl⟩ := Prod.mk.inj hbody
      exact .of_core_eq rfl rfl
    split at hbody
    · obtain ⟨rfl, rfl⟩ := Prod.mk.inj hbody
      exact .of_core_eq rfl rfl
    next hfields =>
    split at hbody
    · obtain ⟨rfl, rfl⟩ := Prod.mk.inj hbody
      exact .of_core_eq rfl rfl
    next hnew =>
    split at hbody <;> obtain ⟨rfl, rfl⟩ := Prod.mk.inj hbody
    · exact .of_core_eq rfl rfl
    · push Not at hfields
      obtain ⟨hfp, hevent, hid, hstatus⟩ := hfields
      exact .opened hwork (Option.not_isSome_iff_eq_none.mp hnew) hid hevent hfp hstatus

theorem journalTransition_effect {w : WorkArgs Fp} {attemptId : String} {settlement : Settlement}
    (h : journalTransition clk k w attemptId settlement = (r, k')) :
    Effect fingerprint clk k (.journalTransition w attemptId settlement) r k'.core := by
  obtain ⟨-, rfl, rfl⟩ | ⟨e, hwork, hbody⟩ := guarded_cases h
  · exact .of_core_eq rfl rfl
  · split at hbody
    · obtain ⟨rfl, rfl⟩ := Prod.mk.inj hbody
      exact .of_core_eq rfl rfl
    next record hrecord =>
    split at hbody <;> obtain ⟨rfl, rfl⟩ := Prod.mk.inj hbody
    · exact .of_core_eq rfl rfl
    · next hfields =>
      push Not at hfields
      exact .settled hwork hrecord hfields.2.1 hfields.2.2

/-! ### Checkpoints -/

theorem checkpointPrepare_effect {w : WorkArgs Fp} {t : CheckpointRecord Fp}
    {suppliedSession : SessionBinding}
    (h : checkpointPrepare clk k w t suppliedSession = (r, k')) :
    Effect fingerprint clk k (.checkpointPrepare w t suppliedSession) r k'.core := by
  obtain ⟨-, rfl, rfl⟩ | ⟨e, -, hbody⟩ := guarded_cases h
  · exact .of_core_eq rfl rfl
  · refine .of_core_eq rfl ?_
    repeat' split at hbody
    all_goals
      obtain ⟨-, rfl⟩ := Prod.mk.inj hbody
      rfl

theorem checkpointTransition_effect {w : WorkArgs Fp} {checkpointId entryId : String}
    {phase : CheckpointPhase} {expected next : CheckpointRecord Fp}
    (h : checkpointTransition clk k w checkpointId phase entryId expected next = (r, k')) :
    Effect fingerprint clk k (.checkpointTransition w checkpointId phase entryId expected next) r
      k'.core := by
  obtain ⟨-, rfl, rfl⟩ | ⟨e, -, hbody⟩ := guarded_cases h
  · exact .of_core_eq rfl rfl
  · refine .of_core_eq rfl ?_
    repeat' split at hbody
    all_goals
      obtain ⟨-, rfl⟩ := Prod.mk.inj hbody
      rfl

theorem checkpointAbort_effect {w : WorkArgs Fp} {expectedSession : SessionBinding}
    {checkpointId intent : String} {expected next : CheckpointRecord Fp}
    (h : checkpointAbort clk k w expectedSession checkpointId expected next intent = (r, k')) :
    Effect fingerprint clk k
      (.checkpointAbort w expectedSession checkpointId expected next intent) r k'.core := by
  obtain ⟨-, rfl, rfl⟩ | ⟨e, -, hbody⟩ := guarded_cases h
  · exact .of_core_eq rfl rfl
  · split at hbody
    · obtain ⟨rfl, rfl⟩ := Prod.mk.inj hbody
      exact .of_core_eq rfl rfl
    · obtain ⟨rfl, rfl⟩ := Prod.mk.inj hbody
      exact .of_core_eq rfl rfl
    split at hbody
    · obtain ⟨rfl, rfl⟩ := Prod.mk.inj hbody
      exact .of_core_eq rfl rfl
    split at hbody
    · obtain ⟨rfl, rfl⟩ := Prod.mk.inj hbody
      exact .of_core_eq rfl rfl
    split at hbody <;> obtain ⟨rfl, rfl⟩ := Prod.mk.inj hbody
    · exact .of_core_eq rfl rfl
    · exact .released trivial

/-! ### All operations -/

/-- Every call of the store has one of the effects. -/
theorem run_effect (fingerprint : NotificationV2 → Fp) {op : Op Fp}
    (h : op.run clk k = (r, k')) : Effect fingerprint clk k op r k'.core := by
  cases op with
  | init chat => exact init_effect h
  | snapshot => cases h; exact .of_core_eq rfl rfl
  | accept revision event fp completed identityRevision => exact accept_effect h
  | appAcquire owner leaseMs => exact appAcquire_effect h
  | appRenew owner epoch leaseMs => exact appRenew_effect h
  | appRelease owner epoch => exact appRelease_effect h
  | claim a => exact claim_effect h
  | recoverPel a => exact recoverPel_effect h
  | repairIntent a => exact repairIntent_effect h
  | repairClaim a intent => exact repairClaim_effect h
  | repairReleaseFence appOwner appEpoch chatOwner chatEpoch => exact repairReleaseFence_effect h
  | repairRelease w session => exact repairRelease_effect h
  | checkWork w => exact checkWork_effect h
  | turnState w => exact turnState_effect h
  | beginTurn w => exact beginTurn_effect h
  | read => cases h; exact .of_core_eq rfl rfl
  | renew w leaseMs => exact renew_effect h
  | pause w reason => exact pause_effect h
  | bind w session => exact bind_effect h
  | complete w session sends => exact complete_effect h
  | journalBegin w attemptId state => exact journalBegin_effect h
  | nativeJournalBegin w attemptId record session => exact nativeJournalBegin_effect h
  | journalTransition w attemptId settlement => exact journalTransition_effect h
  | journalList => cases h; exact .of_core_eq rfl rfl
  | checkpointPrepare w t suppliedSession => exact checkpointPrepare_effect h
  | checkpointTransition w checkpointId phase entryId expected next =>
    exact checkpointTransition_effect h
  | checkpointAbort w expectedSession checkpointId expected next intent =>
    exact checkpointAbort_effect h
  | checkpointLatest => cases h; exact .of_core_eq rfl rfl
  | waitForWork consumer =>
    cases h
    obtain ⟨hentries, hlast⟩ := RedisStream.xreadgroup_frame k.stream consumer
    exact .of_core_eq rfl (core_of_stream k k.lease hentries hlast)

end Inversion

/-! ## The effect behind an observed call -/

section Observed

variable {fingerprint : NotificationV2 → Fp} {clk : Clock} {k : Keys Fp} {op : Op Fp}
  {r : Reply Fp} {d : Core Fp}

omit [DecidableEq Fp] in
theorem observe_of_releases (h : op.Releases) : observe fingerprint op .ok = none := by
  cases op <;> first | rfl | exact absurd h (by simp [Op.Releases])

/-- What a grant has checked and written. -/
theorem Effect.of_granted {w : WorkArgs Fp} (h : Effect fingerprint clk k op r d)
    (hobs : observe fingerprint op r = some (.granted w)) :
    ∃ event e untilMs intent,
      k.app.Alive w.appOwner w.appEpoch (clk.now 0) ∧ ¬ k.Leased clk w.appOwner w.appEpoch ∧
      k.seqs.lookup (Decimal.inc k.cursor) = some event ∧ k.events.lookup event = some e ∧
      w.chatEpoch = Decimal.inc (counter k.lease.epoch) ∧
      w.streamId = e.id ∧ w.eventId = e.raw.eventId ∧ w.fingerprint = fingerprint e.raw ∧
      (∀ record ∈ k.tools.vals, record.state.status = .confirmed) ∧
      d = { k.core with
        lease := { k.lease.grant w.chatOwner w.chatEpoch w.appOwner w.appEpoch event with
          untilMs := some untilMs, repairIntent := intent } } := by
  cases h with
  | quiet hnone => rw [hnone] at hobs; cases hobs
  | @granted _ _ w' event e untilMs intent hobs' halive hfree hhead hevent hepoch hid hraw hfp
      htools =>
    obtain rfl : w' = w := by rw [hobs'] at hobs; cases hobs; rfl
    exact ⟨event, e, untilMs, intent, halive, hfree, hhead, hevent, hepoch, hid, hraw, hfp,
      htools, rfl⟩
  | released hop => rw [observe_of_releases hop] at hobs; cases hobs
  | _ => cases hobs

/-- What an application grant has written. -/
theorem Effect.of_appGranted {owner epoch : String} (h : Effect fingerprint clk k op r d)
    (hobs : observe fingerprint op r = some (.appGranted owner epoch)) :
    epoch = Decimal.inc (counter k.app.epoch) ∧ d.app.epoch = some epoch := by
  cases h with
  | quiet hnone => rw [hnone] at hobs; cases hobs
  | appGranted => cases hobs; exact ⟨rfl, rfl⟩
  | granted _ _ hobs' => rw [hobs'] at hobs; cases hobs
  | released hop => rw [observe_of_releases hop] at hobs; cases hobs
  | _ => cases hobs

end Observed

end WhatsAppMcp.Controller.Redis
