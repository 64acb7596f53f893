import WhatsAppMcp.Controller.Compaction.World

/-!
# What the compactor may ask

`Guarded` says for each query after what it may be asked.  Facts about the past
and the checkpoint that the others cannot spoil are `Steady`; those that a
transition does not spoil either are `Firm`.

* `guards_of_harmless`, `guards_of_recovered`: programs that only read.
* `guards_latest`, `guards_transition`: the two calls of the repository.
-/

namespace WhatsAppMcp.Controller.Compaction

open Calls Redis Trace Succession

variable {Fp : Type} [DecidableEq Fp]

/-! ## What may be asked -/

section Guards

variable {setting : Setting Fp} {settings : Settings} {start w w' : World Fp}
  {past : List (Said Fp)}

omit [DecidableEq Fp] in
/-- The checkpoint of the chat, if any, is restored or aborted. -/
def World.AtRest (setting : Setting Fp) (w : World Fp) : Prop :=
  ∀ c, w.checkpoint setting = some c → c.phase.Terminal

omit [DecidableEq Fp] in
/-- The checkpoint of the chat has the payload, if it has the id. -/
def World.Holds (setting : Setting Fp) (w : World Fp) (id : String) (payload : CheckpointV1) : Prop :=
  ∀ c, w.checkpoint setting = some c → c.checkpointId = id → c.checkpoint = payload

omit [DecidableEq Fp] in
/-- The session was reopened, and its branch is evidence of the checkpoint. -/
def Found (settings : Settings) (past : List (Said Fp)) (id entryId : String)
    (payload : CheckpointV1) : Prop :=
  ∃ (before after : World Fp) (reopened : Reopened) (entry : CompactionEntry),
    ⟨before, .reopen, .ok reopened, after⟩ ∈ past ∧ reopened.same = true ∧
      Evidence settings.texts settings.checkpointMaxBytes id entryId payload reopened.entries entry

omit [DecidableEq Fp] in
/-- The id was drawn in this run. -/
def Drawn (past : List (Said Fp)) (id : String) : Prop :=
  ∃ before after : World Fp, ⟨before, .randomBytes, .ok id, after⟩ ∈ past

omit [DecidableEq Fp] in
/-- The checkpoint that this run has met is restored with the same payload, or
the operator has aborted it. -/
def Recovered (setting : Setting Fp) (start : World Fp) (past : List (Said Fp)) : Prop :=
  ∀ c, start.checkpoint setting = some c → c.phase ≠ .aborted →
    ∃ turn ∈ past, ∃ c', turn.before.checkpoint setting = some c' ∧
      c'.checkpointId = c.checkpointId ∧ c'.checkpoint = c.checkpoint ∧
        (c'.phase = .restored ∨ c.phase = .prepared ∧ c' = c.abort)

/-- What may be asked in a run that began in `start`, after `past`. -/
structure Guarded (setting : Setting Fp) (settings : Settings) (start : World Fp)
    (past : List (Said Fp)) (w : World Fp) (q : Ask Fp) : Prop where
  repository : ∀ op, q = .script op → op.FromRepository setting.fingerprint setting.digest
  transition : ∀ args id phase entryId record next,
    q = .script (.checkpointTransition args id phase entryId record next) →
    (∃ payload, Found settings past id entryId payload ∧ w.Holds setting id payload) ∨
      phase = .compacted ∧ Drawn past id
  rest : (∃ request, q = .complete request) ∨
    (∃ args t session, q = .script (.checkpointPrepare args t session)) → w.AtRest setting
  unused : ∀ args t session, q = .script (.checkpointPrepare args t session) →
    w.Unused setting t.checkpointId
  onward : q.Onward → Recovered setting start past

/-- A fact about the past and the checkpoint that the others do not spoil. -/
structure Steady (setting : Setting Fp) (F : List (Said Fp) → World Fp → Prop) : Prop where
  past : ∀ past turn w, F past w → F (past ++ [turn]) w
  quiet : ∀ past w w', World.Quiet setting w w' → F past w → F past w'

omit [DecidableEq Fp] in
theorem Steady.and {F G : List (Said Fp) → World Fp → Prop} (hF : Steady setting F)
    (hG : Steady setting G) : Steady setting fun past w => F past w ∧ G past w :=
  ⟨fun past turn w h => ⟨hF.past past turn w h.1, hG.past past turn w h.2⟩,
    fun past w w' hquiet h => ⟨hF.quiet past w w' hquiet h.1, hG.quiet past w w' hquiet h.2⟩⟩

omit [DecidableEq Fp] in
theorem steady_atRest : Steady setting fun _ w => w.AtRest setting := by
  refine ⟨fun _ _ _ h => h, fun _ w w' hquiet h c hc => ?_⟩
  obtain ⟨hsame, -⟩ | ⟨p, hold, hphase, hnew, -⟩ := hquiet
  · exact h c (hsame ▸ hc)
  · rw [hnew] at hc
    cases hc
    exact .inr rfl

omit [DecidableEq Fp] in
theorem steady_holds {id : String} {payload : CheckpointV1} :
    Steady setting fun _ w => w.Holds setting id payload := by
  refine ⟨fun _ _ _ h => h, fun _ w w' hquiet h c hc hid => ?_⟩
  obtain ⟨hsame, -⟩ | ⟨p, hold, hphase, hnew, -⟩ := hquiet
  · exact h c (hsame ▸ hc) hid
  · rw [hnew] at hc
    cases hc
    exact h p hold hid

omit [DecidableEq Fp] in
theorem steady_unused {id : String} : Steady setting fun _ w => w.Unused setting id := by
  refine ⟨fun _ _ _ h => h, fun _ w w' hquiet h => ?_⟩
  obtain ⟨hsame, hwritten⟩ | ⟨p, hold, hphase, hnew, hwritten⟩ := hquiet
  · exact ⟨hwritten ▸ h.1, hsame ▸ h.2⟩
  · refine ⟨fun q hq => ?_, fun q hq => ?_⟩
    · rw [hwritten] at hq
      rcases List.mem_append.mp hq with hq | hq
      · exact h.1 q hq
      · rw [List.mem_singleton.mp hq]
        exact h.2 p hold
    · rw [hnew] at hq
      cases hq
      exact h.2 p hold

omit [DecidableEq Fp] in
theorem steady_found {id entryId : String} {payload : CheckpointV1} :
    Steady setting fun past (_ : World Fp) => Found settings past id entryId payload := by
  refine ⟨fun past turn w h => ?_, fun _ _ _ _ h => h⟩
  obtain ⟨before, after, reopened, entry, hmem, hfound⟩ := h
  exact ⟨before, after, reopened, entry, List.mem_append_left _ hmem, hfound⟩

omit [DecidableEq Fp] in
theorem steady_drawn {id : String} : Steady setting fun past (_ : World Fp) => Drawn past id := by
  refine ⟨fun past turn w h => ?_, fun _ _ _ _ h => h⟩
  obtain ⟨before, after, hmem⟩ := h
  exact ⟨before, after, List.mem_append_left _ hmem⟩

omit [DecidableEq Fp] in
theorem steady_recovered :
    Steady setting fun past (_ : World Fp) => Recovered setting start past := by
  refine ⟨fun past turn w h c hc hphase => ?_, fun _ _ _ _ h => h⟩
  obtain ⟨turn', hmem, hrecovered⟩ := h c hc hphase
  exact ⟨turn', List.mem_append_left _ hmem, hrecovered⟩

end Guards

/-! ## Harmless programs -/

section Programs

variable {α : Type} {setting : Setting Fp} {settings : Settings} {start w : World Fp}
  {past : List (Said Fp)} {F : List (Said Fp) → World Fp → Prop}

/-- Every query of the program is guarded, and its value satisfies `post`. -/
abbrev Guards (setting : Setting Fp) (settings : Settings) (start : World Fp) (p : Async Fp α)
    (past : List (Said Fp)) (w : World Fp) (post : List (Said Fp) → World Fp → α → Prop) : Prop :=
  p.Yields (World.Answers setting) (Guarded setting settings start) past w post

omit [DecidableEq Fp] in
theorem asks_ask {G : Ask Fp → Prop} {q : Ask Fp} (h : G q) : (ask q).Asks G := by
  refine (Prog.asks_query h).bind fun a => ?_
  cases a <;> trivial

theorem Ask.Harmless.repository {q : Ask Fp} (h : q.Harmless) (op : Op Fp) (hq : q = .script op) :
    op.FromRepository setting.fingerprint setting.digest := by
  subst hq
  cases op <;> first | exact h.elim | trivial

/-- A harmless query is guarded, with the recovery done where it is onward and
the checkpoint at rest where it asks the model. -/
theorem Ask.Harmless.guarded {q : Ask Fp} (h : q.Harmless)
    (hrest : (∃ request, q = .complete request) → w.AtRest setting)
    (honward : q.Onward → Recovered setting start past) :
    Guarded setting settings start past w q := by
  refine ⟨h.repository, ?_, fun hwhich => hrest (hwhich.resolve_right ?_), ?_, honward⟩
  · intro args id phase entryId record next hq
    subst hq
    exact h.elim
  · intro ⟨args, t, session, hq⟩
    subst hq
    exact h.elim
  · intro args t session hq
    subst hq
    exact h.elim

/-- A harmless query that is not onward is guarded. -/
theorem guarded_of_harmless {q : Ask Fp} (h : q.Harmless) (hbefore : ¬ q.Onward) :
    Guarded setting settings start past w q := by
  refine h.guarded ?_ fun honward => absurd honward hbefore
  intro ⟨request, hq⟩
  subst hq
  exact absurd trivial hbefore

/-- Before the recovery, harmless queries keep what is steady. -/
theorem guards_of_harmless {p : Async Fp α} (hp : p.Asks fun q => q.Harmless ∧ ¬ q.Onward)
    (hF : Steady setting F) (hs : F past w) :
    Guards setting settings start p past w fun past w _ => F past w :=
  hp.yields hs (fun _ _ _ hq _ => guarded_of_harmless hq.1 hq.2)
    fun past w _ _ _ hq hs ha => hF.quiet _ _ _ (ha.quiet hq.1) (hF.past past _ w hs)

/-- After the recovery, harmless queries keep what is steady. -/
theorem guards_of_recovered {p : Async Fp α} (hp : p.Asks Ask.Harmless) (hF : Steady setting F)
    (hrest : ∀ past w, F past w → Recovered setting start past ∧ w.AtRest setting)
    (hs : F past w) : Guards setting settings start p past w fun past w _ => F past w :=
  hp.yields hs
    (fun past w _ hq hs => hq.guarded (fun _ => (hrest past w hs).2) fun _ => (hrest past w hs).1)
    fun past w _ _ _ hq hs ha => hF.quiet _ _ _ (ha.quiet hq) (hF.past past _ w hs)

theorem guards_current (hF : Steady setting F) (hs : F past w) :
    Guards setting settings start current past w fun past w _ => F past w :=
  guards_of_harmless (asks_ask ⟨trivial, id⟩) hF hs

theorem guards_effect {e : Effect} (hF : Steady setting F) (hs : F past w) :
    Guards setting settings start (ask (.effect e)) past w fun past w _ => F past w :=
  guards_of_harmless (asks_ask ⟨trivial, id⟩) hF hs

theorem guards_idle (hF : Steady setting F) (hs : F past w) :
    Guards setting settings start (ask .idle) past w fun past w _ => F past w :=
  guards_of_harmless (asks_ask ⟨trivial, id⟩) hF hs

/-- One query, with its turn. -/
theorem guards_ask {q : Ask Fp} {post : List (Said Fp) → World Fp → q.Value → Prop}
    (hq : Guarded setting settings start past w q)
    (h : ∀ v w', World.Answers setting w q (.ok v) w' → post (past ++ [⟨w, q, .ok v, w'⟩]) w' v) :
    Guards setting settings start (ask q) past w post := by
  have hquery : Guards setting settings start (Prog.query q) past w fun past' w' a =>
      ∀ v, a = .ok v → post past' w' v := by
    refine Prog.yields_query hq fun a w' ha v hv => ?_
    subst hv
    exact h v w' ha
  refine hquery.bind fun past' w' a ha => ?_
  cases a with
  | ok v => exact Prog.yields_pure (ha v rfl)
  | error code => exact Prog.yields_throw

/-- `latest` reads the checkpoint. -/
theorem guards_latest (hF : Steady setting F) (hs : F past w) :
    Guards setting settings start latest past w fun past' w' v =>
      F past' w' ∧ v = w.checkpoint setting ∧ World.Quiet setting w w' ∧
        ∃ turn ∈ past', turn.before = w := by
  have hask : Guards setting settings start (ask (.script .checkpointLatest)) past w
      fun past' w' v => F past' w' ∧ v = .checkpoint (w.checkpoint setting) ∧
        World.Quiet setting w w' ∧ ∃ turn ∈ past', turn.before = w := by
    refine guards_ask (guarded_of_harmless trivial id) fun v w' ha => ?_
    have hquiet : World.Quiet setting w w' := ha.quiet trivial
    exact ⟨hF.quiet _ _ _ hquiet (hF.past past _ w hs), ha.latest, hquiet, _,
      List.mem_append_right _ (List.mem_singleton_self _), rfl⟩
  refine hask.bind fun past' w' v hv => ?_
  obtain ⟨hs, rfl, hrest⟩ := hv
  exact Prog.yields_pure ⟨hs, rfl, hrest⟩

end Programs

/-! ## Transitions -/

section Transitions

variable {setting : Setting Fp} {settings : Settings} {turn : Turned Fp} {start w : World Fp}
  {past : List (Said Fp)} {F : List (Said Fp) → World Fp → Prop} {id entryId : String}
  {phase : CheckpointPhase} {payload : CheckpointV1}

/-- A steady fact that a transition does not spoil either. -/
structure Firm (setting : Setting Fp) (F : List (Said Fp) → World Fp → Prop) : Prop extends
    Steady setting F where
  moved : ∀ past w w' c c', w.checkpoint setting = some c → w'.checkpoint setting = some c' →
    c'.checkpointId = c.checkpointId → c'.checkpoint = c.checkpoint → F past w → F past w'

omit [DecidableEq Fp] in
theorem Firm.and {G : List (Said Fp) → World Fp → Prop} (hF : Firm setting F)
    (hG : Firm setting G) : Firm setting fun past w => F past w ∧ G past w :=
  { hF.toSteady.and hG.toSteady with
    moved := fun past w w' c c' hc hc' hid hpayload h =>
      ⟨hF.moved past w w' c c' hc hc' hid hpayload h.1,
        hG.moved past w w' c c' hc hc' hid hpayload h.2⟩ }

omit [DecidableEq Fp] in
theorem firm_holds : Firm setting fun _ w => w.Holds setting id payload := by
  refine { steady_holds with moved := fun _ w w' c c' hc hc' hid hpayload h d hd hdid => ?_ }
  rw [hc'] at hd
  cases hd
  rw [hpayload]
  exact h c hc (hid ▸ hdid)

omit [DecidableEq Fp] in
/-- A steady fact about the past only is firm. -/
theorem Firm.of_past {P : List (Said Fp) → Prop} (h : Steady setting fun past _ => P past) :
    Firm setting fun past _ => P past :=
  { h with moved := fun _ _ _ _ _ _ _ _ _ h => h }

/-- A guarded transition keeps what is firm. -/
theorem guards_transition (hfingerprint : turn.fingerprint = setting.fingerprint)
    (hF : Firm setting F)
    (hguard : ∀ past w, F past w →
      (∃ payload, Found settings past id entryId payload ∧ w.Holds setting id payload) ∨
        phase = .compacted ∧ Drawn past id) (hs : F past w) :
    Guards setting settings start (transition turn id phase entryId) past w
      fun past w _ => F past w := by
  refine (guards_latest hF.toSteady hs).bind fun past w v hv => ?_
  obtain ⟨hs, -⟩ := hv
  cases v with
  | none => exact Prog.yields_pure hs
  | some record =>
    by_cases hphase : phase ≠ .compacted ∧ phase ≠ .restored
    · have hnone : checkpointsTransition turn.fingerprint turn.work id phase entryId record = none :=
        if_pos hphase
      simp only [hnone]
      exact Prog.yields_throw
    · have hsome : checkpointsTransition turn.fingerprint turn.work id phase entryId record =
          some (.checkpointTransition (argsFor turn.fingerprint turn.work) id phase entryId record
            (record.advance phase entryId)) := if_neg hphase
      simp only [hsome]
      have hop : Op.FromRepository setting.fingerprint setting.digest (.checkpointTransition
          (argsFor turn.fingerprint turn.work) id phase entryId record
            (record.advance phase entryId)) :=
        ⟨turn.work, id, phase, entryId, record, hfingerprint ▸ hsome⟩
      have hask : Guards setting settings start (ask (.script (.checkpointTransition
          (argsFor turn.fingerprint turn.work) id phase entryId record
            (record.advance phase entryId)))) past w fun past w _ => F past w := by
        refine guards_ask ?_ fun v w' ha => ?_
        · refine ⟨?_, ?_, ?_, ?_, fun honward => honward.elim⟩
          · intro op hq
            cases hq
            exact hop
          · intro args id' phase' entryId' record' next hq
            cases hq
            exact hguard past w hs
          · intro hrest
            obtain ⟨request, hq⟩ | ⟨args, t, session, hq⟩ := hrest <;> cases hq
          · intro args t session hq
            cases hq
        · have hpast := hF.past past ⟨w, _, .ok v, w'⟩ w hs
          cases ha.writes hop with
          | quiet hquiet => exact hF.quiet _ _ _ hquiet hpast
          | prepared call => cases call
          | advanced call hid hold hnew hquiet =>
            cases call
            exact hF.quiet _ _ _ hquiet (hF.moved _ w _ record _ hold hnew rfl rfl hpast)
      exact hask.bind fun past w v hs => Prog.yields_pure hs

end Transitions

end WhatsAppMcp.Controller.Compaction
