import WhatsAppMcp.Controller.Compaction.Guards

/-!
# Compaction across crashes

* `guards_recover`: the recovery of the latest checkpoint.
* `guards_compact`: a new checkpoint.
* `guards_prepare`: every query of `prepare` is guarded.
* `compaction_survives_crashes`: what that says about every run.
-/

namespace WhatsAppMcp.Controller.Compaction

open Calls Redis Trace Succession

variable {Fp : Type} [DecidableEq Fp]

/-! ## The recovery -/

section Recovery

variable {setting : Setting Fp} {settings : Settings} {turn : Turned Fp} {start w : World Fp}
  {past : List (Said Fp)} {F : List (Said Fp) → World Fp → Prop} {original : CheckpointRecord Fp}

omit [DecidableEq Fp] in
theorem reconciled_ok {reopened : Reopened} {found : String × CheckpointV1}
    (h : reconciled settings original reopened = .ok found) :
    reopened.same = true ∧ found.2 = original.checkpoint ∧ ∃ entry,
      Evidence settings.texts settings.checkpointMaxBytes original.checkpointId found.1
        original.checkpoint reopened.entries entry := by
  unfold reconciled at h
  split at h
  · cases h
  · next hsame =>
    split at h
    · next entry honly =>
      split_ifs at h with hlength hentry hstores
      cases h
      rw [Bool.not_eq_false] at hsame hstores
      exact ⟨hsame, rfl, entry, evidence_of_stores honly hstores⟩
    · cases h

/-- `reconcileCheckpoint` finds the checkpoint on the reopened branch. -/
theorem guards_reconcileCheckpoint (hF : Steady setting F) (hs : F past w) :
    Guards setting settings start (reconcileCheckpoint settings turn original) past w
      fun past w v => F past w ∧ v.2 = original.checkpoint ∧
        Found settings past original.checkpointId v.1 original.checkpoint := by
  refine (guards_effect hF hs).bind fun past w _ hs => ?_
  refine (guards_idle hF hs).bind fun past w idle hs => ?_
  split
  · exact Prog.yields_throw
  · refine (guards_current hF hs).bind fun past w _ hs => ?_
    refine (guards_effect hF hs).bind fun past w _ hs => ?_
    refine (guards_current hF hs).bind fun past w _ hs => ?_
    refine (guards_effect hF hs).bind fun past w _ hs => ?_
    refine (guards_current hF hs).bind fun past w _ hs => ?_
    have hreopen : Guards setting settings start (ask .reopen) past w fun past w reopened =>
        F past w ∧ ∃ before after : World Fp, ⟨before, .reopen, .ok reopened, after⟩ ∈ past := by
      refine guards_ask (guarded_of_harmless trivial id) fun v w' ha => ?_
      exact ⟨hF.quiet _ _ _ (ha.quiet trivial) (hF.past past _ w hs), w, w',
        List.mem_append_right _ (List.mem_singleton_self _)⟩
    refine hreopen.bind fun past w reopened hv => ?_
    obtain ⟨hs, before, after, hturn⟩ := hv
    split
    · exact Prog.yields_throw
    · next found hfound =>
      obtain ⟨hsame, hpayload, entry, hevidence⟩ := reconciled_ok hfound
      have hkept : Steady setting fun past w => F past w ∧
          Found settings past original.checkpointId found.1 original.checkpoint :=
        hF.and steady_found
      have hstart : F past w ∧ Found settings past original.checkpointId found.1
          original.checkpoint := ⟨hs, before, after, reopened, entry, hturn, hsame, hevidence⟩
      refine (guards_effect hkept hstart).bind fun past w _ hs => ?_
      refine (guards_current hkept hs).bind fun past w _ hs => ?_
      exact Prog.yields_pure ⟨hs.1, hpayload, hs.2⟩

/-- The transitions of a reconciled checkpoint are guarded. -/
theorem guards_settle {entryId : String} (hfingerprint : turn.fingerprint = setting.fingerprint)
    (hs : w.Holds setting original.checkpointId original.checkpoint ∧
      Found settings past original.checkpointId entryId original.checkpoint) :
    Guards setting settings start (settle turn original entryId) past w fun past w _ =>
      w.Holds setting original.checkpointId original.checkpoint ∧
        Found settings past original.checkpointId entryId original.checkpoint := by
  have hF : Firm setting fun past w => w.Holds setting original.checkpointId original.checkpoint ∧
      Found settings past original.checkpointId entryId original.checkpoint :=
    firm_holds.and (Firm.of_past steady_found)
  have hguard : ∀ (phase : CheckpointPhase) (past : List (Said Fp)) (w : World Fp),
      w.Holds setting original.checkpointId original.checkpoint ∧
        Found settings past original.checkpointId entryId original.checkpoint →
      (∃ payload, Found settings past original.checkpointId entryId payload ∧
        w.Holds setting original.checkpointId payload) ∨
          phase = .compacted ∧ Drawn past original.checkpointId :=
    fun _ _ _ h => .inl ⟨original.checkpoint, h.2, h.1⟩
  unfold settle
  split
  · refine (guards_current hF.toSteady hs).bind fun past w _ hs => ?_
    refine (guards_transition hfingerprint hF (hguard _) hs).bind fun past w done hs => ?_
    split
    · exact Prog.yields_throw
    · refine (guards_current hF.toSteady hs).bind fun past w _ hs => ?_
      refine (guards_latest hF.toSteady hs).bind fun past w v hv => ?_
      obtain ⟨hs, -⟩ := hv
      split
      · exact Prog.yields_throw
      · next compacted =>
        split
        · exact Prog.yields_throw
        · next his =>
          have hid : compacted.checkpointId = original.checkpointId := by
            unfold CheckpointRecord.is at his
            simp only [Bool.not_eq_false, Bool.and_eq_true, decide_eq_true_eq] at his
            exact his.1.1.2
          refine (guards_current hF.toSteady hs).bind fun past w _ hs => ?_
          rw [hid]
          refine (guards_transition hfingerprint hF (hguard _) hs).bind fun past w done hs => ?_
          split
          · exact Prog.yields_throw
          · exact Prog.yields_pure hs
  · refine (guards_current hF.toSteady hs).bind fun past w _ hs => ?_
    refine (guards_transition hfingerprint hF (hguard _) hs).bind fun past w done hs => ?_
    split
    · exact Prog.yields_throw
    · exact Prog.yields_pure hs
  · exact Prog.yields_pure hs
  · exact Prog.yields_pure hs

/-- The recovery brings the checkpoint to rest. -/
theorem guards_recover (hfingerprint : turn.fingerprint = setting.fingerprint)
    (hs : w.Holds setting original.checkpointId original.checkpoint) :
    Guards setting settings start (recover settings turn original) past w fun past w _ =>
      w.AtRest setting ∧ ∃ turn ∈ past, ∃ c, turn.before.checkpoint setting = some c ∧
        c.checkpointId = original.checkpointId ∧ c.checkpoint = original.checkpoint ∧
          c.phase = .restored := by
  have hholds : Steady setting fun (_ : List (Said Fp)) w =>
      w.Holds setting original.checkpointId original.checkpoint := steady_holds
  refine (guards_current hholds hs).bind fun past w _ hs => ?_
  refine (guards_reconcileCheckpoint hholds hs).bind fun past w found hv => ?_
  obtain ⟨entryId, checkpoint⟩ := found
  obtain ⟨hs, hpayload, hfound⟩ := hv
  dsimp only
  split
  · exact Prog.yields_throw
  · refine (guards_settle hfingerprint ⟨hs, hfound⟩).bind fun past w _ hs => ?_
    refine (guards_current (hholds.and steady_found) hs).bind fun past w _ hs => ?_
    refine (guards_latest (hholds.and steady_found) hs).bind fun past w' v hv => ?_
    obtain ⟨hs, hread, hquiet, turn', hmem, hbefore⟩ := hv
    split
    · exact Prog.yields_throw
    · next settled =>
      split
      · exact Prog.yields_throw
      · next his =>
        unfold CheckpointRecord.is at his
        simp only [Bool.not_eq_false, Bool.and_eq_true, decide_eq_true_eq] at his
        obtain ⟨⟨⟨hphase, hid⟩, hentry⟩, hcheckpoint⟩ := his
        have hrest : w.AtRest setting := by
          intro c hc
          rw [← hread] at hc
          cases hc
          exact .inl hphase
        refine Prog.yields_pure ⟨steady_atRest.quiet past w w' hquiet hrest, turn', hmem, settled, ?_,
          hid, hcheckpoint.trans hpayload, hphase⟩
        rw [hbefore, ← hread]

end Recovery

/-! ## A new checkpoint -/

section Fresh

variable {setting : Setting Fp} {settings : Settings} {turn : Turned Fp} {start w : World Fp}
  {past : List (Said Fp)} {F : List (Said Fp) → World Fp → Prop} {seed : CheckpointV1}

omit [DecidableEq Fp] in
theorem asks_current : (current : Async Fp Unit).Asks Ask.Harmless := asks_ask trivial

omit [DecidableEq Fp] in
theorem asks_askModel {preparation summary : String} :
    (askModel settings seed preparation summary : Async Fp Written).Asks Ask.Harmless := by
  refine asks_current.bind fun _ => (asks_ask trivial).bind fun initial => ?_
  split
  · exact Prog.asks_throw
  split
  · exact Prog.asks_throw
  split
  · split
    · exact Prog.asks_throw
    split
    · exact Prog.asks_throw
    split
    · exact Prog.asks_throw
    refine asks_current.bind fun _ => ?_
    split
    · exact Prog.asks_throw
    refine (asks_ask trivial).bind fun answer => asks_current.bind fun _ => ?_
    refine (asks_ask trivial).bind fun final => ?_
    split
    · exact Prog.asks_throw
    split
    · exact Prog.asks_throw
    · exact Prog.asks_pure
  · exact Prog.asks_throw

theorem asks_history {sequence : Nat} {checkpoint : Option CheckpointV1} :
    (history turn sequence checkpoint).Asks Ask.Harmless := by
  refine (asks_ask trivial).bind fun _ => asks_current.bind fun _ => ?_
  refine (asks_ask trivial).bind fun entries => asks_current.bind fun _ => ?_
  split
  · exact Prog.asks_throw
  · exact Prog.asks_pure

omit [DecidableEq Fp] in
theorem asks_template {path : String} : (template path : Async Fp String).Asks Ask.Harmless := by
  refine Prog.Asks.bind ((asks_ask trivial).tryCatch fun _ => Prog.asks_throw) fun value => ?_
  split_ifs
  · exact Prog.asks_throw
  · exact Prog.asks_pure

/-- `prepare` of an unused id is guarded while the checkpoint is at rest. -/
theorem guards_prepareCheckpoint {record : CheckpointRecord Fp} {P : List (Said Fp) → Prop}
    (hfingerprint : turn.fingerprint = setting.fingerprint)
    (hP : Steady setting fun past _ => P past) (hrecovered : Recovered setting start past)
    (hrest : w.AtRest setting) (hunused : w.Unused setting record.checkpointId) (hs : P past) :
    Guards setting settings start (prepareCheckpoint turn record) past w fun past _ _ => P past := by
  unfold prepareCheckpoint
  split
  · exact Prog.yields_pure hs
  · next op hop =>
    have hwork : ∃ args session, op = .checkpointPrepare args record session := by
      unfold checkpointsPrepare at hop
      split at hop
      · cases hop
      · split_ifs at hop
        cases hop
        exact ⟨_, _, rfl⟩
    obtain ⟨args, session, rfl⟩ := hwork
    have hask : Guards setting settings start
        (ask (.script (.checkpointPrepare args record session))) past w fun past _ _ => P past := by
      refine guards_ask ?_ fun v w' ha => hP.past past _ w hs
      refine ⟨?_, ?_, fun _ => hrest, ?_, fun _ => hrecovered⟩
      · intro op hq
        cases hq
        exact ⟨turn.work, record, hfingerprint ▸ hop⟩
      · intro args id phase entryId record next hq
        cases hq
      · intro args t session hq
        cases hq
        exact hunused
    exact hask.bind fun past w v hs => Prog.yields_pure hs

/-- `run` ends with a checkpoint whose id it has drawn. -/
theorem guards_run {session : SessionBinding} {preparation summary : String}
    (hfingerprint : turn.fingerprint = setting.fingerprint)
    (hs : Recovered setting start past ∧ w.AtRest setting) :
    Guards setting settings start (run settings turn session seed preparation summary) past w
      fun past _ armed => Recovered setting start past ∧ Drawn past armed.checkpointId := by
  have hF : Steady setting fun past w => Recovered setting start past ∧ w.AtRest setting :=
    steady_recovered.and steady_atRest
  refine (guards_effect hF hs).bind fun past w _ hs => ?_
  have hdraw : Guards setting settings start (ask .randomBytes) past w fun past w id =>
      (Recovered setting start past ∧ w.AtRest setting) ∧ w.Unused setting id ∧ Drawn past id := by
    refine guards_ask (Ask.Harmless.guarded trivial (fun _ => hs.2) fun _ => hs.1) fun id w' ha => ?_
    refine ⟨hF.quiet _ _ _ (ha.quiet trivial) (hF.past past _ w hs), ?_, w, w',
      List.mem_append_right _ (List.mem_singleton_self _)⟩
    cases ha with
    | drawn unused moves => exact steady_unused.quiet past _ _ moves.quiet unused
    | other _ hrandom => exact absurd rfl hrandom
  refine hdraw.bind fun past w id hs => ?_
  have hF : Steady setting fun past w => (Recovered setting start past ∧ w.AtRest setting) ∧
      w.Unused setting id ∧ Drawn past id := hF.and (steady_unused.and steady_drawn)
  refine (guards_of_recovered asks_askModel hF (fun _ _ h => h.1) hs).bind fun past w written hs => ?_
  split
  · exact Prog.yields_throw
  · next expectedSummary _ =>
    refine (guards_current hF hs).bind fun past w _ hs => ?_
    have hgeneration : (ask .generation : Async Fp SessionFileGeneration).Asks Ask.Harmless :=
      asks_ask trivial
    refine (guards_of_recovered hgeneration hF (fun _ _ h => h.1) hs).bind
      fun past w generation hs => ?_
    have hP : Steady setting fun past (_ : World Fp) => Recovered setting start past ∧
        Drawn past id := steady_recovered.and steady_drawn
    refine (guards_prepareCheckpoint hfingerprint hP hs.1.1 hs.1.2 hs.2.1 ⟨hs.1.1, hs.2.2⟩).bind
      fun past w done hs => ?_
    split
    · exact Prog.yields_throw
    · refine (guards_current hP hs).bind fun past w _ hs => ?_
      have hcompact : Guards setting settings start (ask (.compact id
          (written.result id expectedSummary))) past w fun past _ _ =>
            Recovered setting start past ∧ Drawn past id := by
        refine guards_ask (Ask.Harmless.guarded trivial ?_ fun _ => hs.1) fun v w' ha =>
          hP.past past _ w hs
        rintro ⟨request, hq⟩
        cases hq
      refine hcompact.bind fun past w compacted hs => ?_
      refine (guards_current hP hs).bind fun past w _ hs => ?_
      split
      · exact Prog.yields_throw
      · exact Prog.yields_pure hs

/-- The `compacted` transition of a checkpoint that the run has drawn. -/
theorem guards_compacted {armed : Armed} (hfingerprint : turn.fingerprint = setting.fingerprint)
    (hs : Recovered setting start past ∧ Drawn past armed.checkpointId) :
    Guards setting settings start (armed.compacted turn) past w fun past _ _ =>
      Recovered setting start past ∧ Drawn past armed.checkpointId := by
  have hF : Firm setting fun past _ => Recovered setting start past ∧
      Drawn past armed.checkpointId := Firm.of_past (steady_recovered.and steady_drawn)
  refine (guards_current hF.toSteady hs).bind fun past w _ hs => ?_
  refine (guards_transition hfingerprint hF (fun _ _ h => .inr ⟨rfl, h.2⟩) hs).bind
    fun past w done hs => ?_
  split
  · exact Prog.yields_throw
  · exact Prog.yields_pure hs

/-- The `restored` transition of a checkpoint that was found. -/
theorem guards_restored {armed : Armed} (hfingerprint : turn.fingerprint = setting.fingerprint)
    (hs : Recovered setting start past ∧
      Found settings past armed.checkpointId armed.entryId armed.checkpoint) :
    Guards setting settings start (armed.restored turn) past w fun past _ _ =>
      Recovered setting start past := by
  have hF : Steady setting fun past (_ : World Fp) => Recovered setting start past ∧
      Found settings past armed.checkpointId armed.entryId armed.checkpoint :=
    steady_recovered.and steady_found
  refine (guards_current hF hs).bind fun past w _ hs => ?_
  refine (guards_latest hF hs).bind fun past w' v hv => ?_
  obtain ⟨hs, hread, hquiet, -⟩ := hv
  split
  · exact Prog.yields_throw
  · next record =>
    split
    · exact Prog.yields_throw
    · next his =>
      unfold CheckpointRecord.is at his
      simp only [Bool.not_eq_false, Bool.and_eq_true, decide_eq_true_eq] at his
      have hholds : w.Holds setting armed.checkpointId armed.checkpoint := by
        intro c hc _
        rw [← hread] at hc
        cases hc
        exact his.2
      have hG : Firm setting fun past w => (Recovered setting start past ∧
          Found settings past armed.checkpointId armed.entryId armed.checkpoint) ∧
            w.Holds setting armed.checkpointId armed.checkpoint :=
        (Firm.of_past hF).and firm_holds
      have hs := And.intro hs (steady_holds.quiet past w w' hquiet hholds)
      refine (guards_current hG.toSteady hs).bind fun past w _ hs => ?_
      refine (guards_transition hfingerprint hG (fun _ _ h => .inl ⟨_, h.1.2, h.2⟩) hs).bind
        fun past w done hs => ?_
      split
      · exact Prog.yields_throw
      · exact Prog.yields_pure hs.1.1

omit [DecidableEq Fp] in
theorem appended_ok {armed : Armed} {reopened : Reopened}
    (h : appended settings seed armed reopened = true) : reopened.same = true ∧ ∃ entry,
      Evidence settings.texts settings.checkpointMaxBytes armed.checkpointId armed.entryId
        armed.checkpoint reopened.entries entry := by
  unfold appended at h
  rw [Bool.and_eq_true] at h
  obtain ⟨hsame, hentry⟩ := h
  split at hentry
  · next entry honly =>
    rw [Bool.and_eq_true, decide_eq_true_eq] at hentry
    obtain ⟨hid, hstores⟩ := hentry
    exact ⟨hsame, entry, hid ▸ evidence_of_stores honly hstores⟩
  · cases hentry

/-- `compact` is guarded. -/
theorem guards_compact {instructions : String} (hfingerprint : turn.fingerprint = setting.fingerprint)
    (hs : Recovered setting start past ∧ w.AtRest setting) :
    Guards setting settings start (compact settings turn instructions seed) past w fun past _ _ =>
      Recovered setting start past := by
  have hF : Steady setting fun past w => Recovered setting start past ∧ w.AtRest setting :=
    steady_recovered.and steady_atRest
  refine (guards_effect hF hs).bind fun past w _ hs => ?_
  refine (guards_idle hF hs).bind fun past w idle hs => ?_
  split
  · exact Prog.yields_throw
  refine (guards_current hF hs).bind fun past w _ hs => ?_
  have harmed : Guards setting settings start (hostCompact settings turn instructions seed) past w
      fun past _ armed => Recovered setting start past ∧ Drawn past armed.checkpointId := by
    refine (guards_current hF hs).bind fun past w _ hs => ?_
    have hread : (ask (.script .read) : Async Fp (Reply Fp)).Asks Ask.Harmless := asks_ask trivial
    refine (guards_of_recovered hread hF (fun _ _ h => h) hs).bind fun past w reply hs => ?_
    split
    · exact guards_run hfingerprint hs
    · exact Prog.yields_throw
  refine harmed.bind fun past w armed hs => ?_
  have hP : Steady setting fun past (_ : World Fp) => Recovered setting start past ∧
      Drawn past armed.checkpointId := steady_recovered.and steady_drawn
  refine (guards_effect hP hs).bind fun past w _ hs => ?_
  refine (guards_current hP hs).bind fun past w _ hs => ?_
  refine (guards_current hP hs).bind fun past w _ hs => ?_
  refine (guards_effect hP hs).bind fun past w _ hs => ?_
  refine (guards_current hP hs).bind fun past w _ hs => ?_
  refine (guards_effect hP hs).bind fun past w _ hs => ?_
  refine (guards_current hP hs).bind fun past w _ hs => ?_
  refine (guards_compacted hfingerprint hs).bind fun past w _ hs => ?_
  refine (guards_current hP hs).bind fun past w _ hs => ?_
  have hreopen : Guards setting settings start
      (tryCatch (ask .reopen) fun _ => throw .compactionFailed) past w fun past w reopened =>
        Recovered setting start past ∧
          ∃ before after : World Fp, ⟨before, .reopen, .ok reopened, after⟩ ∈ past := by
    refine Prog.Yields.rethrow (guards_ask (guarded_of_harmless trivial id) fun v w' ha => ?_)
    exact ⟨steady_recovered.past past _ w hs.1, w, w',
      List.mem_append_right _ (List.mem_singleton_self _)⟩
  refine hreopen.bind fun past w reopened hv => ?_
  obtain ⟨hrecovered, before, after, hturn⟩ := hv
  split
  · exact Prog.yields_throw
  · next happended =>
    rw [Bool.not_eq_false] at happended
    obtain ⟨hsame, entry, hevidence⟩ := appended_ok happended
    have hQ : Steady setting fun past (_ : World Fp) => Recovered setting start past ∧
        Found settings past armed.checkpointId armed.entryId armed.checkpoint :=
      steady_recovered.and steady_found
    have hs : Recovered setting start past ∧
        Found settings past armed.checkpointId armed.entryId armed.checkpoint :=
      ⟨hrecovered, before, after, reopened, entry, hturn, hsame, hevidence⟩
    refine (guards_current hQ hs).bind fun past w _ hs => ?_
    refine (guards_restored hfingerprint hs).bind fun past w _ hs => ?_
    refine (guards_current steady_recovered hs).bind fun past w _ hs => ?_
    exact (guards_effect steady_recovered hs).bind fun past w _ hs => Prog.yields_pure hs

end Fresh

/-! ## `prepare` -/

section Prepare

variable {setting : Setting Fp} {settings : Settings} {turn : Turned Fp} {start w : World Fp}
  {past : List (Said Fp)} {seed : CheckpointV1}

theorem guards_compactNow (hfingerprint : turn.fingerprint = setting.fingerprint)
    (hs : Recovered setting start past ∧ w.AtRest setting) :
    Guards setting settings start (compactNow settings turn seed) past w fun past _ _ =>
      Recovered setting start past := by
  have hF : Steady setting fun past w => Recovered setting start past ∧ w.AtRest setting :=
    steady_recovered.and steady_atRest
  refine (guards_current hF hs).bind fun past w _ hs => ?_
  refine (guards_of_recovered asks_template hF (fun _ _ h => h) hs).bind fun past w pre hs => ?_
  refine (guards_current hF hs).bind fun past w _ hs => ?_
  refine (guards_of_recovered asks_template hF (fun _ _ h => h) hs).bind fun past w summary hs => ?_
  refine (guards_current hF hs).bind fun past w _ hs => ?_
  refine (guards_compact hfingerprint hs).bind fun past w result hs => ?_
  obtain ⟨entryId, checkpoint⟩ := result
  dsimp only
  split
  · exact Prog.yields_throw
  · split
    · exact Prog.yields_throw
    · refine (guards_current steady_recovered hs).bind fun past w _ hs => ?_
      refine (guards_latest steady_recovered hs).bind fun past w restored hv => ?_
      split
      · exact Prog.yields_throw
      · split
        · exact Prog.yields_throw
        · exact Prog.yields_pure hv.1

theorem guards_proceed {settled : Option (CheckpointRecord Fp)}
    (hfingerprint : turn.fingerprint = setting.fingerprint)
    (hs : Recovered setting start past ∧ w.AtRest setting) :
    Guards setting settings start (proceed settings turn settled) past w fun past _ _ =>
      Recovered setting start past := by
  have hF : Steady setting fun past w => Recovered setting start past ∧ w.AtRest setting :=
    steady_recovered.and steady_atRest
  have hask : ∀ (q : Ask Fp) {past : List (Said Fp)} {w : World Fp}, q.Harmless →
      Recovered setting start past ∧ w.AtRest setting →
      Guards setting settings start (ask q) past w fun past w _ =>
        Recovered setting start past ∧ w.AtRest setting :=
    fun q _ _ hq hs => guards_of_recovered (asks_ask hq) hF (fun _ _ h => h) hs
  refine (hask .decide trivial hs).bind fun past w decision hs => ?_
  split
  · exact Prog.yields_pure hs.1
  split
  · exact Prog.yields_throw
  have hfresh : Guards setting settings start (freshIfUnknown decision) past w fun past w _ =>
      Recovered setting start past ∧ w.AtRest setting := by
    unfold freshIfUnknown
    split
    · exact hask .isFresh trivial hs
    · exact Prog.yields_pure hs
  refine hfresh.bind fun past w fresh hs => ?_
  split
  · exact Prog.yields_throw
  refine (guards_current hF hs).bind fun past w _ hs => ?_
  refine (hask (.script .read) trivial hs).bind fun past w reply hs => ?_
  split
  · split
    · exact Prog.yields_throw
    refine (guards_current hF hs).bind fun past w _ hs => ?_
    refine (hask (.script .journalList) trivial hs).bind fun past w reply hs => ?_
    split
    · split
      · exact Prog.yields_throw
      split
      · exact Prog.yields_throw
      split
      · exact Prog.yields_pure hs.1
      refine (guards_current hF hs).bind fun past w _ hs => ?_
      refine (guards_of_recovered asks_history hF (fun _ _ h => h) hs).bind
        fun past w historical hs => ?_
      split
      · exact Prog.yields_throw
      refine (hask .now trivial hs).bind fun past w createdAt hs => ?_
      split
      · exact Prog.yields_throw
      · exact guards_compactNow hfingerprint hs
    · exact Prog.yields_throw
  · exact Prog.yields_throw

/-- Every query of `prepare` is guarded, and where it ends with a value the
earlier checkpoint was recovered. -/
theorem guards_prepare (hfingerprint : turn.fingerprint = setting.fingerprint) :
    Guards setting settings start (prepare settings turn) [] start fun past _ _ =>
      Recovered setting start past := by
  -- Until the first reading, the others may have aborted the checkpoint.
  have hF : Steady setting fun (_ : List (Said Fp)) w => World.Quiet setting start w :=
    ⟨fun _ _ _ h => h, fun _ _ _ hquiet h => h.trans hquiet⟩
  refine (guards_current hF (.inl ⟨rfl, rfl⟩)).bind fun past w _ hs => ?_
  refine (guards_latest hF hs).bind fun past w' v hv => ?_
  obtain ⟨-, hread, hquiet, turn', hmem, hbefore⟩ := hv
  have haborted : (∀ c, w.checkpoint setting = some c → c.phase = .aborted) →
      Recovered setting start past ∧ w'.AtRest setting := by
    intro hall
    refine ⟨fun c hc hphase => ?_, steady_atRest.quiet past w w' hquiet fun c hc => .inr (hall c hc)⟩
    obtain ⟨hsame, -⟩ | ⟨p, hold, hprepared, hnew, -⟩ := hs
    · exact absurd (hall c (hsame.trans hc)) hphase
    · rw [hc] at hold
      cases hold
      exact ⟨turn', hmem, c.abort, hbefore ▸ hnew, rfl, rfl, .inr ⟨hprepared, rfl⟩⟩
  cases v with
  | none => exact guards_proceed hfingerprint (haborted fun c hc => by rw [← hread] at hc; cases hc)
  | some original =>
    by_cases hphase : original.phase = .aborted
    · simp only [hphase, if_true]
      refine guards_proceed hfingerprint (haborted fun c hc => ?_)
      rw [← hread] at hc
      cases hc
      exact hphase
    · simp only [hphase, if_false]
      have hholds : w.Holds setting original.checkpointId original.checkpoint := by
        intro c hc _
        rw [← hread] at hc
        cases hc
        rfl
      refine (guards_recover hfingerprint (steady_holds.quiet past w w' hquiet hholds)).bind
        fun past w'' settled hv => ?_
      obtain ⟨hrest, turn'', hmem, c', hc', hid, hpayload, hrestored⟩ := hv
      refine guards_proceed hfingerprint ⟨fun c hc hstart => ?_, hrest⟩
      refine ⟨turn'', hmem, c', hc', ?_⟩
      obtain ⟨hsame, -⟩ | ⟨p, hold, hprepared, hnew, -⟩ := hs
      · rw [hsame, hc] at hread
        cases hread
        exact ⟨hid, hpayload, .inl hrestored⟩
      · rw [hnew] at hread
        cases hread
        exact absurd rfl hphase

end Prepare

/-! ## Reached worlds -/

section Reached

variable {setting : Setting Fp} {settings : Settings} {turn : Turned Fp} {start w w' : World Fp}
  {past : List (Said Fp)}

/-- The labels are a run of the store whose calls come from the repository. -/
structure World.Sound (setting : Setting Fp) (w : World Fp) : Prop where
  run : ∃ time, Exec (Store.Step setting.chats setting.fingerprint) (Store.empty time) w.labels
    w.store
  repository : ∀ c r, some (c, r) ∈ w.labels →
    c.op.FromRepository setting.fingerprint setting.digest
  fresh : PreparesFresh w.labels

omit [DecidableEq Fp] in
theorem preparesFresh_snoc {ls : List (Label Fp)} {l : Label Fp} (h : PreparesFresh ls)
    (hl : ∀ c r args t session, l = some (c, r) → c.op = .checkpointPrepare args t session →
      ∀ p ∈ checkpointHistory c.chat ls, p.checkpointId ≠ t.checkpointId) :
    PreparesFresh (ls ++ [l]) := by
  intro before c r after args t session hls hop
  rcases List.eq_nil_or_concat after with rfl | ⟨after, last, rfl⟩
  · obtain ⟨hbefore, hlast⟩ := List.append_inj' hls rfl
    subst hbefore
    cases hlast
    exact .inl (hl c r args t session rfl hop)
  · have hsplit : ls ++ [l] = (before ++ some (c, r) :: after) ++ [last] := by
      rw [hls]
      simp
    obtain ⟨hls, -⟩ := List.append_inj' hsplit rfl
    exact h before c r after args t session hls hop

theorem World.Sound.step (h : w.Sound setting) {l : Label Fp} {store : Store Fp}
    (step : Store.Step setting.chats setting.fingerprint w.store l store)
    (repository : ∀ c r, l = some (c, r) → c.op.FromRepository setting.fingerprint setting.digest)
    (fresh : PreparesFresh (w.labels ++ [l])) :
    (⟨w.labels ++ [l], store⟩ : World Fp).Sound setting := by
  obtain ⟨time, run⟩ := h.run
  refine ⟨⟨time, run.snoc step⟩, fun c r hmem => ?_, fresh⟩
  rcases List.mem_append.mp hmem with hmem | hmem
  · exact h.repository c r hmem
  · exact repository c r (List.mem_singleton.mp hmem).symm

theorem World.Moves.sound (h : World.Moves setting w w') (hw : w.Sound setting) :
    w'.Sound setting := by
  induction h with
  | refl => exact hw
  | tail _ last ih =>
    cases last with
    | step step repository fresh others => exact ih.step step repository (fresh ih.fresh)

omit [DecidableEq Fp] in
/-- A world comes after another. -/
def World.After (start w : World Fp) : Prop := start.labels <+: w.labels

omit [DecidableEq Fp] in
theorem World.After.written (h : start.After w) : ∀ p ∈ start.written setting, p ∈ w.written setting := by
  intro p hp
  obtain ⟨more, hmore⟩ := h
  show p ∈ checkpointHistory _ w.labels
  rw [← hmore]
  unfold checkpointHistory
  rw [List.filterMap_append]
  exact List.mem_append_left _ hp

theorem World.Moves.after (h : World.Moves setting w w') : w.After w' := by
  induction h with
  | refl => exact List.prefix_rfl
  | tail _ last ih =>
    cases last with
    | step => exact ih.trans (List.prefix_append _ _)

/-- The answer to a guarded query leads to a sound world. -/
theorem World.Answers.sound {q : Ask Fp} {a : q.Answer} (h : World.Answers setting w q a w')
    (guarded : Guarded setting settings start past w q) (hw : w.Sound setting) :
    w'.Sound setting ∧ w.After w' := by
  have hscript : ∀ {op : Op Fp} {clk : Clock} {r : Reply Fp} {store : Store Fp}, q = .script op →
      Store.Step setting.chats setting.fingerprint w.store
        (some (⟨setting.chat, op, clk⟩, r)) store →
      World.Moves setting ⟨w.labels ++ [some (⟨setting.chat, op, clk⟩, r)], store⟩ w' →
      w'.Sound setting ∧ w.After w' := by
    intro op clk r store hq run after
    refine ⟨after.sound (hw.step run (fun c r' hl => ?_) (preparesFresh_snoc hw.fresh ?_)),
      List.IsPrefix.trans (List.prefix_append _ _) after.after⟩
    · cases hl
      exact guarded.repository op hq
    · intro c r' args t session hl hop p hp
      cases hl
      subst hop
      exact (guarded.unused args t session hq).1 p hp
  cases h with
  | script run after => exact hscript rfl run after
  | unanswered run after => exact hscript rfl run after
  | unsent moves => exact ⟨moves.sound hw, moves.after⟩
  | drawn unused moves => exact ⟨moves.sound hw, moves.after⟩
  | undrawn => exact ⟨hw, List.prefix_rfl⟩
  | other _ _ moves => exact ⟨moves.sound hw, moves.after⟩

theorem World.Reached.sound (h : w.Reached setting) : w.Sound setting := by
  induction h with
  | @start time => exact ⟨⟨time, .nil⟩, by simp, by simp [PreparesFresh]⟩
  | moves _ moves ih => exact moves.sound ih
  | @run w w' settings turn said r past hchat hfingerprint talks ih =>
    exact talks.kept (guards_prepare hfingerprint) ih
      fun past s q a t hq hs ha => (ha.sound hq hs).1

/-- The last record of every checkpoint of the chat is at rest. -/
theorem World.Sound.atRest (h : w.Sound setting) (hrest : w.AtRest setting) (id : String) :
    ∀ t ∈ (item CheckpointRecord.checkpointId (w.written setting) id).getLast?,
      t.phase.Terminal := by
  intro t ht
  obtain ⟨time, run⟩ := h.run
  obtain ⟨hregister, hhistory⟩ := checkpoints_run run h.repository h.fresh setting.chat
  obtain hended | hlast := hhistory.ended (fun _ _ hnext => hnext.key) id t ht
  · exact hended
  · exact hrest t (hregister.trans hlast)

omit [DecidableEq Fp] in
/-- What the others leave in the register is what they found there, or aborted. -/
theorem World.Quiet.registers (h : World.Quiet setting w w') {c : CheckpointRecord Fp}
    (hnew : w'.checkpoint setting = some c) :
    w.checkpoint setting = some c ∨ c.phase = .aborted := by
  obtain ⟨hsame, -⟩ | ⟨p, -, -, habort, -⟩ := h
  · exact .inl (hsame.symm.trans hnew)
  · rw [habort] at hnew
    cases hnew
    exact .inr rfl

/-- What a guarded query leaves in the register. -/
theorem Guarded.registers {q : Ask Fp} {a : q.Answer} (guarded : Guarded setting settings start past w q)
    (h : World.Answers setting w q a w')
    (hdrawn : ∀ id, Drawn past id → ∀ p ∈ start.written setting, p.checkpointId ≠ id)
    {c : CheckpointRecord Fp} (hnew : w'.checkpoint setting = some c)
    (hne : w.checkpoint setting ≠ some c) :
    (c.phase = .prepared ∨ c.phase = .aborted) ∨
      (∃ entryId, c.compactionEntryId = some entryId ∧
        Found settings past c.checkpointId entryId c.checkpoint) ∨
      c.phase = .compacted ∧ ∀ p ∈ start.written setting, p.checkpointId ≠ c.checkpointId := by
  have hquiet : World.Quiet setting w w' → c.phase = .aborted :=
    fun hquiet => (hquiet.registers hnew).resolve_left hne
  by_cases hscript : ∃ op, q = .script op
  · obtain ⟨op, rfl⟩ := hscript
    cases h.writes (guarded.repository op rfl) with
    | quiet quiet => exact .inl (.inr (hquiet quiet))
    | prepared call hphase hwritten quiet =>
      obtain hsame | haborted := quiet.registers hnew
      · rw [hwritten] at hsame
        cases hsame
        exact .inl (.inl hphase)
      · exact .inl (.inr haborted)
    | @advanced args id entryId phase record u call hid hold hwritten quiet =>
      obtain hsame | haborted := quiet.registers hnew
      · rw [hwritten] at hsame
        cases hsame
        obtain ⟨payload, hfound, hholds⟩ | ⟨hcompacted, hid'⟩ :=
          guarded.transition _ _ _ _ _ _ (by rw [call])
        · refine .inr (.inl ⟨entryId, rfl, ?_⟩)
          have hpayload : record.checkpoint = payload := hholds record hold hid
          show Found settings past record.checkpointId entryId record.checkpoint
          rw [hid, hpayload]
          exact hfound
        · refine .inr (.inr ⟨hcompacted, ?_⟩)
          show ∀ p ∈ start.written setting, p.checkpointId ≠ record.checkpointId
          rw [hid]
          exact hdrawn id hid'
      · exact .inl (.inr haborted)
  · refine .inl (.inr (hquiet (h.quiet ?_)))
    cases q with
    | script op => exact absurd ⟨op, rfl⟩ hscript
    | _ => trivial

/-- In every world that the controller can have reached, for every run of
`prepare` from there, up to any point at which it ends or stops:

* the work after the recovery begins, and the run ends with a value, only once
  the checkpoint that the run has met is restored with the same payload (or the
  operator has aborted it);
* a compacted or restored record comes into the register only after exactly one
  compaction entry with its id, its payload and the rendered summary was found on
  the reopened branch, except that a checkpoint of this run is compacted before;
* the model is asked and a checkpoint prepared only while every checkpoint of the
  chat is restored or aborted. -/
theorem compaction_survives_crashes {said : List (Said Fp)} {r : Option (Except ErrorClass Bool)}
    (reached : w.Reached setting)
    (hfingerprint : turn.fingerprint = setting.fingerprint)
    (talks : (prepare settings turn).Talks (World.Answers setting) w said r w') :
    (∀ before t after, said = before ++ t :: after → t.query.Onward →
        Recovered setting w before) ∧
      (∀ v, r = some (.ok v) → Recovered setting w said) ∧
      (∀ before t after, said = before ++ t :: after → ∀ c, t.after.checkpoint setting = some c →
        t.before.checkpoint setting ≠ some c →
        (c.phase = .prepared ∨ c.phase = .aborted) ∨
          (∃ entryId, c.compactionEntryId = some entryId ∧
            Found settings before c.checkpointId entryId c.checkpoint) ∨
          c.phase = .compacted ∧ ∀ p ∈ w.written setting, p.checkpointId ≠ c.checkpointId) ∧
      ∀ before t after, said = before ++ t :: after →
        ((∃ request, t.query = .complete request) ∨
          ∃ args record session, t.query = .script (.checkpointPrepare args record session)) →
        ∀ id, ∀ c ∈ (item CheckpointRecord.checkpointId (t.before.written setting) id).getLast?,
          c.phase.Terminal := by
  have hsafe : Guards setting settings w (prepare settings turn) [] w fun past _ _ =>
      Recovered setting w past := guards_prepare hfingerprint
  have hcarried := Prog.Safe.carry (J := fun u => u.Sound setting ∧ w.After u) hsafe
    ⟨reached.sound, List.prefix_rfl⟩ fun past s q a t hq hs ha =>
      ⟨(ha.sound hq hs.1).1, hs.2.trans (ha.sound hq hs.1).2⟩
  have hasked := talks.asked hcarried
  refine ⟨fun before t after hsaid honward => (hasked before t after hsaid).1.onward honward,
    fun v hv => talks.ended hsafe hv v rfl, fun before t after hsaid c hnew hne => ?_,
    fun before t after hsaid hwhich id => ?_⟩
  · have hanswer := talks.answered t (hsaid ▸ List.mem_append_right _ List.mem_cons_self)
    have hguarded := (hasked before t after hsaid).1
    rw [List.nil_append] at hguarded
    have hdrawn : ∀ id, Drawn before id → ∀ p ∈ w.written setting, p.checkpointId ≠ id := by
      intro id hid p hp
      obtain ⟨u, u', hmem⟩ := hid
      obtain ⟨first, rest, hbefore⟩ := List.append_of_mem hmem
      have hturn := (hasked first ⟨u, .randomBytes, .ok id, u'⟩ (rest ++ t :: after)
        (by rw [hsaid, hbefore]; simp)).2.2
      have hdraw := talks.answered _ (hsaid ▸ List.mem_append_left _ hmem)
      cases hdraw with
      | drawn unused => exact unused.1 p (hturn.written p hp)
      | other _ hrandom => exact absurd rfl hrandom
    exact hguarded.registers hanswer hdrawn hnew hne
  · obtain ⟨hguarded, hsound, -⟩ := hasked before t after hsaid
    exact hsound.atRest (hguarded.rest hwhich) id

end Reached

/-! ## A sample crash -/

/-- The calls of others that bring the sample event to a worker. -/
def claimedCalls : List (String × Nat × Op NotificationV2) :=
  [("1@g.us", 1, .init "1@g.us"), ("1@g.us", 2, .appAcquire "app" 100),
    ("1@g.us", 3, .accept "0" sampleEvent sampleEvent false "0"),
    ("1@g.us", 4, .claim ⟨"app", "1", "worker", 50, 10⟩),
    ("1@g.us", 5, .bind (argsFor id sampleClaim) sampleSession)]

/-- The chat of the sample event. -/
def sampleSetting : Setting NotificationV2 := ⟨["1@g.us"], id, sampleDigest, "1@g.us"⟩

/-- The work of the sample event's worker, in its session. -/
def sampleTurned : Turned NotificationV2 := ⟨id, sampleClaim, sampleSession⟩

/-- The model always writes the payload of the sample checkpoint. -/
def sampleSettings : Settings where
  texts := ⟨fun _ => false, fun _ => false, fun _ => "", fun _ => true,
    fun _ => some sampleCheckpoint.checkpoint⟩
  checkpointMaxBytes := 1024
  policyVersion := "1"
  templateVersion := "1"
  preCompactionPath := "pre"
  compactionSummaryPath := "summary"

/-- The id that is drawn. -/
def sampleId : String := "0123456789abcdef0123456789abcdef"

/-- The entry that the SDK appends for the sample checkpoint. -/
def sampleEntry : CompactionEntry :=
  ⟨"entry-1", summaryText sampleCheckpoint.checkpoint sampleId, true,
    some ⟨1, sampleId, some sampleCheckpoint.checkpoint⟩⟩

/-- A script that the compactor calls. -/
def compactorCalls : Op NotificationV2 → Bool
  | .checkpointLatest => true
  | .read => true
  | .journalList => true
  | .checkpointPrepare .. => true
  | .checkpointTransition .. => true
  | _ => false

/-- A script runs while the clock stands still. -/
def sampleScript (w : World NotificationV2) (op : Op NotificationV2) :
    Except ErrorClass (Reply NotificationV2) × World NotificationV2 :=
  if compactorCalls op then
    (.ok (op.run (.frozen w.store.time) (w.store.keys "1@g.us")).1,
      ⟨w.labels ++ [some (⟨"1@g.us", op, .frozen w.store.time⟩,
          (op.run (.frozen w.store.time) (w.store.keys "1@g.us")).1)],
        w.store.write "1@g.us" (op.run (.frozen w.store.time) (w.store.keys "1@g.us")).2
          w.store.time⟩)
  else (.error .storeUnavailable, w)

/-- The sample id is drawn, unless a checkpoint has it. -/
def sampleDraw (w : World NotificationV2) : Except ErrorClass String × World NotificationV2 :=
  if (w.written sampleSetting).all (fun p => p.checkpointId ≠ sampleId) ∧
      (w.checkpoint sampleSetting).all (fun p => p.checkpointId ≠ sampleId) then (.ok sampleId, w)
  else (.error .internalFailed, w)

/-- A world in which the usage decision and the branch are given. -/
def sampleRespond (decision : UsageStatus) (entries : List CompactionEntry)
    (w : World NotificationV2) : (q : Ask NotificationV2) → q.Answer × World NotificationV2
  | .script op => sampleScript w op
  | .randomBytes => sampleDraw w
  | .current => (.ok (), w)
  | .effect _ => (.ok (), w)
  | .idle => (.ok true, w)
  | .reopen => (.ok ⟨true, entries⟩, w)
  | .getBranch => (.ok [.binding sampleSession], w)
  | .decide => (.ok decision, w)
  | .isFresh => (.ok false, w)
  | .template _ => (.ok "text", w)
  | .now => (.ok "2026-01-01T00:00:03Z", w)
  | .survey => (.ok ⟨some "entry", [], "generation", some "kept", some 1, true, "", true⟩, w)
  | .complete _ => (.ok ("json", "usage"), w)
  | .generation => (.ok ⟨"1", "2", "3", "4", "5"⟩, w)
  | .compact _ _ => (.error .internalFailed, w)

theorem sampleRespond_answers (decision : UsageStatus) (entries : List CompactionEntry)
    (w : World NotificationV2) (q : Ask NotificationV2) :
    World.Answers sampleSetting w q (sampleRespond decision entries w q).1
      (sampleRespond decision entries w q).2 := by
  cases q with
  | script op =>
    show World.Answers sampleSetting w (.script op) (sampleScript w op).1 (sampleScript w op).2
    unfold sampleScript
    split
    · next hop =>
      have hissued : Call.Issued ["1@g.us"] id (⟨"1@g.us", op, .frozen w.store.time⟩ :
          Call NotificationV2) := by
        refine ⟨List.mem_singleton_self _, ?_⟩
        cases op <;> first | exact trivial | cases hop
      exact .script (Store.Step.call hissued le_rfl (fun _ => le_rfl) rfl) .refl
    · exact .unsent .refl
  | randomBytes =>
    show World.Answers sampleSetting w .randomBytes (sampleDraw w).1 (sampleDraw w).2
    unfold sampleDraw
    split
    · next hunused =>
      simp only [List.all_eq_true, Option.all_eq_true, decide_eq_true_eq] at hunused
      exact .drawn hunused .refl
    · exact .undrawn
  | _ => exact .other (by simp) (by simp) .refl

/-- The others may issue calls that do not compact. -/
theorem moves_drive {setting : Setting Fp} {w : World Fp} {calls : List (String × Nat × Op Fp)}
    (h : Driven setting.chats setting.fingerprint w.store.time calls)
    (hops : ∀ call ∈ calls, ¬ Compacting call.2.2 ∧
      call.2.2.FromRepository setting.fingerprint setting.digest) :
    World.Moves setting w ⟨w.labels ++ (w.store.drive calls).1, (w.store.drive calls).2⟩ := by
  induction calls generalizing w with
  | nil =>
    rw [show w.labels ++ (w.store.drive []).1 = w.labels from List.append_nil _]
    exact .refl
  | cons call rest ih =>
    obtain ⟨chat, now, op⟩ := call
    obtain ⟨htime, hissued, hrest⟩ := h
    obtain ⟨hothers, hrepository⟩ := hops _ List.mem_cons_self
    have hmove : World.Move setting w ⟨w.labels ++
        [some (⟨chat, op, .frozen now⟩, (op.run (.frozen now) (w.store.keys chat)).1)],
          w.store.write chat (op.run (.frozen now) (w.store.keys chat)).2 now⟩ := by
      refine .step (.call hissued htime (fun _ => le_rfl) rfl) ?_ (fun hfresh => ?_) ?_
      · intro c r hl
        cases hl
        exact hrepository
      · refine preparesFresh_snoc hfresh fun c r args t session hl hop => ?_
        cases hl
        have hop : op = .checkpointPrepare args t session := hop
        subst hop
        exact absurd trivial hothers
      · intro c r hl _
        cases hl
        exact hothers
    have hmoves := Relation.ReflTransGen.head hmove
      (ih hrest fun call hmem => hops call (List.mem_cons_of_mem _ hmem))
    rwa [List.append_assoc] at hmoves

/-- The world in which the worker has the sample event. -/
def claimedWorld : World NotificationV2 :=
  ⟨((Store.empty 0).drive claimedCalls).1, ((Store.empty 0).drive claimedCalls).2⟩

theorem claimedWorld_reached : claimedWorld.Reached sampleSetting := by
  have hstart : (⟨[], Store.empty 0⟩ : World NotificationV2).Reached sampleSetting := .start
  have hdriven : Driven ["1@g.us"] id 0 claimedCalls := by
    simp [claimedCalls, Driven, Call.Issued, sampleEvent]
  have hmoves : World.Moves sampleSetting ⟨[], Store.empty 0⟩
      ⟨[] ++ ((Store.empty 0).drive claimedCalls).1, ((Store.empty 0).drive claimedCalls).2⟩ := by
    refine moves_drive hdriven fun call hcall => ?_
    simp only [claimedCalls, List.mem_cons, List.not_mem_nil, or_false] at hcall
    rcases hcall with rfl | rfl | rfl | rfl | rfl <;> exact ⟨id, trivial⟩
  exact .moves hstart hmoves

/-- The world in which `prepare` has died right after its checkpoint was
prepared. -/
def crashedWorld : World NotificationV2 :=
  ((prepare sampleSettings sampleTurned).converse (sampleRespond .compact []) 34 claimedWorld).2.2

theorem crashedWorld_reached : crashedWorld.Reached sampleSetting :=
  .run claimedWorld_reached rfl rfl
    (Prog.converse_talks (sampleRespond_answers .compact []) 34 _ claimedWorld)

/-- The next `prepare` finds the entry on the branch, and restores the checkpoint. -/
theorem compaction_survives_crashes_of_crashedWorld :
    ∃ (w' : World NotificationV2) (said : List (Said NotificationV2)),
      (crashedWorld.checkpoint sampleSetting).map CheckpointRecord.phase = some .prepared ∧
        (prepare sampleSettings sampleTurned).Talks (World.Answers sampleSetting) crashedWorld said
          (some (.ok false)) w' ∧ Recovered sampleSetting crashedWorld said := by
  have htalks := Prog.converse_talks (sampleRespond_answers .ok [sampleEntry]) 60
    (prepare sampleSettings sampleTurned) crashedWorld
  have hended : ((prepare sampleSettings sampleTurned).converse (sampleRespond .ok [sampleEntry]) 60
      crashedWorld).2.1 = some (.ok false) := by decide +kernel
  rw [hended] at htalks
  exact ⟨_, _, by decide +kernel, htalks,
    (compaction_survives_crashes crashedWorld_reached rfl htalks).2.1 false rfl⟩

end WhatsAppMcp.Controller.Compaction
