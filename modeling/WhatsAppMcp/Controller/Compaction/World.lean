import WhatsAppMcp.Controller.Compaction.Compactor

/-!
# The world of the compactor

A controller runs `prepare` for one event after another, dies at any point, and
starts again.  Meanwhile other clients use the store, and the operator may abort
a prepared checkpoint; the lease of the chat keeps every other worker away from
its checkpoints.

* `World.Answers`: what the world may answer to a query.
* `World.Reached`: what the controller and the others can have led the world to.
* `World.Moves.quiet`: what the others do to the checkpoint of the chat.
* `World.Answers.writes`: what a script of the controller does to it.
-/

namespace WhatsAppMcp.Controller.Compaction

open Calls Redis Trace Succession

variable {Fp : Type} [DecidableEq Fp]

/-! ## The world -/

/-- The store, with the calls that have led to it. -/
structure World (Fp : Type) where
  labels : List (Label Fp)
  store : Store Fp

/-- What the runs of the controller have in common. -/
structure Setting (Fp : Type) where
  chats : List String
  fingerprint : NotificationV2 → Fp
  digest : LegacyRepairDigest Fp
  chat : String

/-- The checkpoint of the chat. -/
def World.checkpoint (w : World Fp) (setting : Setting Fp) : Option (CheckpointRecord Fp) :=
  (w.store.keys setting.chat).checkpoint

/-- The checkpoints that were ever written for the chat. -/
def World.written (w : World Fp) (setting : Setting Fp) : List (CheckpointRecord Fp) :=
  checkpointHistory setting.chat w.labels

omit [DecidableEq Fp] in
/-- The call writes a checkpoint as only the compactor does. -/
def Compacting (op : Op Fp) : Prop :=
  match op with
  | .checkpointPrepare .. => True
  | .checkpointTransition .. => True
  | _ => False

/-- One step of the others. -/
inductive World.Move (setting : Setting Fp) : World Fp → World Fp → Prop
  | step {w : World Fp} {l : Label Fp} {store : Store Fp}
      (step : Store.Step setting.chats setting.fingerprint w.store l store)
      (repository : ∀ c r, l = some (c, r) →
        c.op.FromRepository setting.fingerprint setting.digest)
      (fresh : PreparesFresh w.labels → PreparesFresh (w.labels ++ [l]))
      (others : ∀ c r, l = some (c, r) → c.chat = setting.chat → ¬ Compacting c.op) :
      Move setting w ⟨w.labels ++ [l], store⟩

/-- The others move. -/
abbrev World.Moves (setting : Setting Fp) : World Fp → World Fp → Prop :=
  Relation.ReflTransGen (World.Move setting)

/-- The id is on no checkpoint of the chat. -/
def World.Unused (w : World Fp) (setting : Setting Fp) (checkpointId : String) : Prop :=
  (∀ p ∈ w.written setting, p.checkpointId ≠ checkpointId) ∧
    ∀ p, w.checkpoint setting = some p → p.checkpointId ≠ checkpointId

/-- What the world may answer. -/
inductive World.Answers (setting : Setting Fp) : World Fp → (q : Ask Fp) → q.Answer → World Fp → Prop
  | script {w w' : World Fp} {op : Op Fp} {clk : Clock} {r : Reply Fp} {store : Store Fp}
      (run : Store.Step setting.chats setting.fingerprint w.store (some (⟨setting.chat, op, clk⟩, r))
        store)
      (after : World.Moves setting ⟨w.labels ++ [some (⟨setting.chat, op, clk⟩, r)], store⟩ w') :
      Answers setting w (.script op) (.ok r) w'
  /-- The script runs, and its reply is lost. -/
  | unanswered {w w' : World Fp} {op : Op Fp} {clk : Clock} {r : Reply Fp} {store : Store Fp}
      {code : ErrorClass}
      (run : Store.Step setting.chats setting.fingerprint w.store (some (⟨setting.chat, op, clk⟩, r))
        store)
      (after : World.Moves setting ⟨w.labels ++ [some (⟨setting.chat, op, clk⟩, r)], store⟩ w') :
      Answers setting w (.script op) (.error code) w'
  | unsent {w w' : World Fp} {op : Op Fp} {code : ErrorClass} (moves : World.Moves setting w w') :
      Answers setting w (.script op) (.error code) w'
  /-- Random bytes give an id that no checkpoint has. -/
  | drawn {w w' : World Fp} {id : String} (unused : w.Unused setting id)
      (moves : World.Moves setting w w') : Answers setting w .randomBytes (.ok id) w'
  | undrawn {w : World Fp} {code : ErrorClass} : Answers setting w .randomBytes (.error code) w
  /-- The model, the SDK, the file system and the clock answer what they like. -/
  | other {w w' : World Fp} {q : Ask Fp} {a : q.Answer} (hscript : ∀ op, q ≠ .script op)
      (hrandom : q ≠ .randomBytes) (moves : World.Moves setting w w') : Answers setting w q a w'

/-- A turn of a conversation with the world. -/
abbrev Said (Fp : Type) := Turn (World Fp) (@Ask.Answer Fp)

/-- What the controller may have led the world to: runs of `prepare`, each up to
any point, and the moves of the others. -/
inductive World.Reached (setting : Setting Fp) : World Fp → Prop
  | start {time : Nat} : Reached setting ⟨[], Store.empty time⟩
  | moves {w w' : World Fp} (past : w.Reached setting) (moves : World.Moves setting w w') :
      Reached setting w'
  | run {w w' : World Fp} {settings : Settings} {turn : Turned Fp} {said : List (Said Fp)}
      {r : Option (Except ErrorClass Bool)} (past : w.Reached setting)
      (hchat : turn.chat = setting.chat) (hfingerprint : turn.fingerprint = setting.fingerprint)
      (talks : (prepare settings turn).Talks (World.Answers setting) w said r w') :
      Reached setting w'

/-! ## What the others do to the checkpoint -/

section Others

variable {setting : Setting Fp} {w w' u : World Fp}

/-- The checkpoint of the chat is as before, or the operator has aborted it. -/
def World.Quiet (setting : Setting Fp) (w w' : World Fp) : Prop :=
  (w'.checkpoint setting = w.checkpoint setting ∧ w'.written setting = w.written setting) ∨
    ∃ p, w.checkpoint setting = some p ∧ p.phase = .prepared ∧
      w'.checkpoint setting = some p.abort ∧ w'.written setting = w.written setting ++ [p.abort]

omit [DecidableEq Fp] in
theorem World.Quiet.trans (h : World.Quiet setting w w') (h' : World.Quiet setting w' u) :
    World.Quiet setting w u := by
  obtain ⟨hsame, hwritten⟩ | ⟨p, hold, hphase, hnew, hwritten⟩ := h
  · obtain ⟨hsame', hwritten'⟩ | ⟨p, hold, hphase, hnew, hwritten'⟩ := h'
    · exact .inl ⟨hsame'.trans hsame, hwritten'.trans hwritten⟩
    · exact .inr ⟨p, hsame ▸ hold, hphase, hnew, hwritten'.trans (by rw [hwritten])⟩
  · obtain ⟨hsame', hwritten'⟩ | ⟨q, hold', hphase', -⟩ := h'
    · exact .inr ⟨p, hold, hphase, hsame'.trans hnew, hwritten'.trans hwritten⟩
    · rw [hnew] at hold'
      cases hold'
      cases hphase'

/-- A call of the repository that does not compact aborts a prepared checkpoint
or leaves the register alone. -/
theorem run_quiet {fingerprint : NotificationV2 → Fp} {digest : LegacyRepairDigest Fp} {clk : Clock}
    {k k' : Keys Fp} {r : Reply Fp} {op : Op Fp} (hop : op.FromRepository fingerprint digest)
    (hothers : ¬ Compacting op) (h : op.run clk k = (r, k')) :
    (op.checkpointWritten r = none ∧ k'.checkpoint = k.checkpoint) ∨
      ∃ p, k.checkpoint = some p ∧ p.phase = .prepared ∧ k'.checkpoint = some p.abort ∧
        op.checkpointWritten r = some p.abort := by
  cases run_checkpoint hop h with
  | kept hwritten hkept => exact .inl ⟨hwritten, hkept⟩
  | @moved p t hwritten hold hnext hnew =>
    unfold Op.checkpointWritten at hwritten
    split at hwritten
    · exact absurd trivial hothers
    · exact absurd trivial hothers
    · cases hwritten
      have hphase : t.phase = .aborted := by
        obtain ⟨claim, generation, read, hcall⟩ := hop
        unfold abortCompactionRepair at hcall
        split_ifs at hcall
        cases hcall
        rfl
      cases hnext with
      | repeated hprepared =>
        rw [hprepared] at hphase
        cases hphase
      | compacted => cases hphase
      | restored => cases hphase
      | aborted hprepared => exact .inr ⟨p, hold, hprepared, hnew, rfl⟩
    · cases hwritten
  | opened call => exact absurd (call ▸ trivial) hothers

omit [DecidableEq Fp] in
theorem World.checkpoint_write {w : World Fp} {c : Call Fp} {r : Reply Fp} {k : Keys Fp}
    {time : Nat} (hchat : c.chat ≠ setting.chat) :
    (⟨w.labels ++ [some (c, r)], w.store.write c.chat k time⟩ : World Fp).checkpoint setting =
        w.checkpoint setting ∧
      (⟨w.labels ++ [some (c, r)], w.store.write c.chat k time⟩ : World Fp).written setting =
        w.written setting := by
  constructor
  · show ((w.store.write c.chat k time).chats setting.chat).checkpoint =
      (w.store.chats setting.chat).checkpoint
    rw [Store.write_chats_ne w.store k time (Ne.symm hchat)]
  · show checkpointHistory _ (w.labels ++ _) = checkpointHistory _ w.labels
    rw [checkpointHistory_snoc]
    simp [Label.checkpointWritten, hchat]

omit [DecidableEq Fp] in
/-- A call of the chat writes into the register of the chat. -/
theorem World.checkpoint_call (setting : Setting Fp) (w : World Fp) (op : Op Fp) (clk : Clock)
    (r : Reply Fp) (k : Keys Fp) (time : Nat) :
    (⟨w.labels ++ [some (⟨setting.chat, op, clk⟩, r)], w.store.write setting.chat k time⟩ :
        World Fp).checkpoint setting = k.checkpoint ∧
      (⟨w.labels ++ [some (⟨setting.chat, op, clk⟩, r)], w.store.write setting.chat k time⟩ :
        World Fp).written setting = w.written setting ++ (op.checkpointWritten r).toList := by
  constructor
  · show ((w.store.write setting.chat k time).keys setting.chat).checkpoint = _
    rw [Store.keys_write]
  · show checkpointHistory _ (w.labels ++ _) = _
    rw [checkpointHistory_snoc]
    simp [Label.checkpointWritten, World.written]

/-- A call of the chat that does not compact is quiet. -/
theorem World.quiet_of_call {op : Op Fp} {clk : Clock} {r : Reply Fp} {store : Store Fp}
    (run : Store.Step setting.chats setting.fingerprint w.store
      (some (⟨setting.chat, op, clk⟩, r)) store)
    (hop : op.FromRepository setting.fingerprint setting.digest) (hothers : ¬ Compacting op) :
    World.Quiet setting w ⟨w.labels ++ [some (⟨setting.chat, op, clk⟩, r)], store⟩ := by
  cases run with
  | @call _ _ k now hissued hstart hend hrun =>
    obtain ⟨hregister, hwritten⟩ := World.checkpoint_call setting w op clk r k now
    obtain ⟨hnone, hkept⟩ | ⟨p, hold, hphase, hnew, hsome⟩ := run_quiet hop hothers hrun
    · refine .inl ⟨hregister.trans hkept, ?_⟩
      rw [hwritten, hnone]
      simp
    · refine .inr ⟨p, hold, hphase, hregister.trans hnew, ?_⟩
      rw [hwritten, hsome]
      rfl

theorem World.Move.quiet (h : World.Move setting w w') : World.Quiet setting w w' := by
  cases h with
  | @step l store step repository fresh others =>
    cases step with
    | tick htime =>
      refine .inl ⟨rfl, ?_⟩
      show checkpointHistory _ (w.labels ++ _) = checkpointHistory _ w.labels
      rw [checkpointHistory_snoc]
      simp [Label.checkpointWritten]
    | @call c r k now hissued hstart hend hrun =>
      by_cases hchat : c.chat = setting.chat
      · obtain ⟨chat, op, clk⟩ := c
        obtain rfl : chat = setting.chat := hchat
        exact World.quiet_of_call (.call hissued hstart hend hrun) (repository _ r rfl)
          (others _ r rfl rfl)
      · exact .inl (World.checkpoint_write hchat)

theorem World.Moves.quiet (h : World.Moves setting w w') : World.Quiet setting w w' := by
  induction h with
  | refl => exact .inl ⟨rfl, rfl⟩
  | tail _ last ih => exact ih.trans last.quiet

end Others

/-! ## What a query does to the checkpoint -/

omit [DecidableEq Fp] in
/-- The script reads only. -/
def ReadsOnly (op : Op Fp) : Prop :=
  match op with
  | .checkpointLatest => True
  | .read => True
  | .journalList => True
  | _ => False

omit [DecidableEq Fp] in
/-- The query does not write into the store. -/
def Ask.Harmless : Ask Fp → Prop
  | .script op => ReadsOnly op
  | _ => True

omit [DecidableEq Fp] in
/-- The query is part of the work after the recovery. -/
def Ask.Onward : Ask Fp → Prop
  | .current => False
  | .effect _ => False
  | .idle => False
  | .reopen => False
  | .script .checkpointLatest => False
  | .script (.checkpointTransition ..) => False
  | _ => True

section Queries

variable {setting : Setting Fp} {w w' : World Fp}

theorem ReadsOnly.run {op : Op Fp} (h : ReadsOnly op) (clk : Clock) (k : Keys Fp) (r : Reply Fp) :
    (op.run clk k).2 = k ∧ op.checkpointWritten r = none := by
  cases op <;> first | exact h.elim | exact ⟨rfl, rfl⟩

theorem World.quiet_of_readsOnly {op : Op Fp} {clk : Clock} {r : Reply Fp} {store : Store Fp}
    (run : Store.Step setting.chats setting.fingerprint w.store
      (some (⟨setting.chat, op, clk⟩, r)) store) (hop : ReadsOnly op)
    (after : World.Moves setting ⟨w.labels ++ [some (⟨setting.chat, op, clk⟩, r)], store⟩ w') :
    World.Quiet setting w w' := by
  cases run with
  | @call _ _ k now hissued hstart hend hrun =>
    obtain ⟨hkeys, hwritten⟩ := hop.run clk (w.store.keys setting.chat) r
    have hsame : k = w.store.keys setting.chat := by
      rw [hrun] at hkeys
      exact hkeys
    obtain ⟨hregister, hlist⟩ := World.checkpoint_call setting w op clk r k now
    refine World.Quiet.trans (.inl ⟨?_, ?_⟩) after.quiet
    · rw [hregister, hsame]
      rfl
    · rw [hlist, hwritten]
      simp

/-- A harmless query is quiet. -/
theorem World.Answers.quiet {q : Ask Fp} {a : q.Answer} (h : World.Answers setting w q a w')
    (hq : q.Harmless) : World.Quiet setting w w' := by
  cases h with
  | script run after => exact World.quiet_of_readsOnly run hq after
  | unanswered run after => exact World.quiet_of_readsOnly run hq after
  | unsent moves => exact moves.quiet
  | drawn unused moves => exact moves.quiet
  | undrawn => exact .inl ⟨rfl, rfl⟩
  | other hscript hrandom moves => exact moves.quiet

/-- `checkpoint-latest` reads the checkpoint of the chat. -/
theorem World.Answers.latest {r : Reply Fp}
    (h : World.Answers setting w (.script .checkpointLatest) (.ok r) w') :
    r = .checkpoint (w.checkpoint setting) := by
  cases h with
  | script run after =>
    have hreply := Pi.reply_of_step run
    exact hreply
  | other hscript => exact absurd rfl (hscript _)

/-- What `checkpoint-transition` does. -/
theorem transition_cases {clk : Clock} {k k' : Keys Fp} {args : WorkArgs Fp} {id entryId : String}
    {phase : CheckpointPhase} {record next : CheckpointRecord Fp} {r : Reply Fp}
    (h : checkpointTransition clk k args id phase entryId record next = (r, k')) :
    (r ≠ .ok ∧ k' = k) ∨ r = .ok ∧ k.checkpoint = some record ∧ record.checkpointId = id ∧
      k'.checkpoint = some next := by
  obtain ⟨hlost, hr, rfl⟩ | ⟨e, -, hbody⟩ := guarded_cases h
  · exact .inl ⟨by rw [hr]; simp, rfl⟩
  · split at hbody
    · cases hbody
      exact .inl ⟨by simp, rfl⟩
    · next t hold =>
      split_ifs at hbody with hid hstep hsame
      · cases hbody
        exact .inl ⟨by simp, rfl⟩
      · cases hbody
        exact .inl ⟨by simp, rfl⟩
      · cases hbody
        exact .inl ⟨by simp, rfl⟩
      · cases hbody
        rw [not_not] at hid hsame
        subst hsame
        exact .inr ⟨rfl, hold, hid, rfl⟩

/-- What `checkpoint-prepare` does. -/
theorem prepare_cases {clk : Clock} {k k' : Keys Fp} {args : WorkArgs Fp} {t : CheckpointRecord Fp}
    {session : SessionBinding} {r : Reply Fp}
    (h : checkpointPrepare clk k args t session = (r, k')) :
    (r ≠ .ok ∧ k' = k) ∨ r = .ok ∧ k'.checkpoint = some t := by
  obtain ⟨hlost, hr, rfl⟩ | ⟨e, -, hbody⟩ := guarded_cases h
  · exact .inl ⟨by rw [hr]; simp, rfl⟩
  · repeat' split at hbody
    all_goals
      cases hbody
      first
        | exact .inl ⟨by simp, rfl⟩
        | exact .inr ⟨rfl, rfl⟩

omit [DecidableEq Fp] in
/-- A call of the chat that writes no checkpoint is quiet. -/
theorem World.quiet_of_refused {op : Op Fp} {clk : Clock} {r : Reply Fp} {time : Nat}
    (hwritten : op.checkpointWritten r = none) :
    World.Quiet setting w ⟨w.labels ++ [some (⟨setting.chat, op, clk⟩, r)],
      w.store.write setting.chat (w.store.keys setting.chat) time⟩ := by
  obtain ⟨hregister, hlist⟩ :=
    World.checkpoint_call setting w op clk r (w.store.keys setting.chat) time
  refine .inl ⟨hregister, ?_⟩
  rw [hlist, hwritten]
  simp

/-- What a script of the controller does to the checkpoint. -/
inductive World.Writes (setting : Setting Fp) (w : World Fp) (op : Op Fp) (w' : World Fp) : Prop
  | quiet (quiet : World.Quiet setting w w')
  | prepared {args : WorkArgs Fp} {t : CheckpointRecord Fp} {session : SessionBinding} {u : World Fp}
      (call : op = .checkpointPrepare args t session) (hphase : t.phase = .prepared)
      (hnew : u.checkpoint setting = some t) (quiet : World.Quiet setting u w')
  | advanced {args : WorkArgs Fp} {id entryId : String} {phase : CheckpointPhase}
      {record : CheckpointRecord Fp} {u : World Fp}
      (call : op = .checkpointTransition args id phase entryId record (record.advance phase entryId))
      (hid : record.checkpointId = id) (hold : w.checkpoint setting = some record)
      (hnew : u.checkpoint setting = some (record.advance phase entryId))
      (quiet : World.Quiet setting u w')

theorem World.writes_of_call {op : Op Fp} {clk : Clock} {r : Reply Fp} {store : Store Fp}
    (run : Store.Step setting.chats setting.fingerprint w.store
      (some (⟨setting.chat, op, clk⟩, r)) store)
    (hop : op.FromRepository setting.fingerprint setting.digest)
    (after : World.Moves setting ⟨w.labels ++ [some (⟨setting.chat, op, clk⟩, r)], store⟩ w') :
    World.Writes setting w op w' := by
  by_cases hothers : Compacting op
  · cases run with
    | @call _ _ k now hissued hstart hend hrun =>
      have hregister := (World.checkpoint_call setting w op clk r k now).1
      cases op with
      | checkpointPrepare args t session =>
        obtain ⟨work, record, hcall⟩ := hop
        obtain ⟨hr, rfl⟩ | ⟨rfl, hnew⟩ := prepare_cases hrun
        · refine .quiet ((World.quiet_of_refused ?_).trans after.quiet)
          cases r <;> first | rfl | exact absurd rfl hr
        · refine .prepared rfl ?_ (hregister.trans hnew) after.quiet
          unfold checkpointsPrepare at hcall
          split at hcall
          · cases hcall
          · split_ifs at hcall with hargs
            cases hcall
            push Not at hargs
            exact hargs.1
      | checkpointTransition args id phase entryId record next =>
        obtain ⟨work, id', phase', entryId', record', hcall⟩ := hop
        unfold checkpointsTransition at hcall
        split_ifs at hcall
        cases hcall
        obtain ⟨hr, rfl⟩ | ⟨rfl, hold, hid, hnew⟩ := transition_cases hrun
        · refine .quiet ((World.quiet_of_refused ?_).trans after.quiet)
          cases r <;> first | rfl | exact absurd rfl hr
        · exact .advanced rfl hid hold (hregister.trans hnew) after.quiet
      | _ => exact absurd hothers id
  · exact .quiet ((World.quiet_of_call run hop hothers).trans after.quiet)

/-- What a query of the controller does to the checkpoint. -/
theorem World.Answers.writes {op : Op Fp} {a : Except ErrorClass (Reply Fp)}
    (h : World.Answers setting w (.script op) a w')
    (hop : op.FromRepository setting.fingerprint setting.digest) : World.Writes setting w op w' := by
  cases h with
  | script run after => exact World.writes_of_call run hop after
  | unanswered run after => exact World.writes_of_call run hop after
  | unsent moves => exact .quiet moves.quiet
  | other hscript => exact absurd rfl (hscript _)

end Queries

end WhatsAppMcp.Controller.Compaction
