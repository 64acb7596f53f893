import WhatsAppMcp.Controller.Compaction.Writer

/-!
# The history of a branch that the controller writes

The reader and the writer disagree in one point.  `confirmed` puts every send
into the marker once, and `confirmedHistory` asks for exactly one attempt behind
each send of the marker.  `DistinctSends` says that they agree.

* `addOutcome_spec`, `settleOutcomes_spec`: an outcome is added, or there are too many.
* `Branch.Reads`: what the reader has after the entries of a branch.
* `Branch.Produced.followed`: the reader follows the writer.
* `confirmed_history_complete`: the history that comes out.
-/

namespace WhatsAppMcp.Controller.Compaction

open Redis (Hash)

variable {Fp : Type} [DecidableEq Fp]

/-! ## Outcomes -/

section Outcomes

variable {T : String → ToolOutcome → Prop} {m : Hash ToolOutcome}

/-- There are more outcomes than a checkpoint may hold. -/
def Overflow (T : String → ToolOutcome → Prop) : Prop :=
  ∃ keys : List String, keys.Nodup ∧ maxOutcomes < keys.length ∧ ∀ a ∈ keys, ∃ o, T a o

/-- The outcomes of a map are among those of `T`, and no more than fit. -/
structure Within (T : String → ToolOutcome → Prop) (m : Hash ToolOutcome) : Prop where
  among : ∀ a o, m.lookup a = some o → T a o
  fits : m.keys.length ≤ maxOutcomes

theorem Within.empty : Within T ∅ :=
  ⟨fun a o h => by simp at h, by simp⟩

theorem Within.keys (hm : ∀ a o, m.lookup a = some o → T a o) : ∀ a ∈ m.keys, ∃ o, T a o := by
  intro a ha
  obtain ⟨o, ho⟩ := Option.isSome_iff_exists.mp (AList.lookup_isSome.mpr ha)
  exact ⟨o, hm a o ho⟩

/-- A new outcome fits, or there are too many. -/
theorem addOutcome_spec (hT : ∀ a o o', T a o → T a o' → o = o') (hm : Within T m)
    {v : ToolOutcome} (hv : T v.attemptId v) :
    (addOutcome m v = .ok (m.insert v.attemptId v) ∧ Within T (m.insert v.attemptId v)) ∨
      addOutcome m v = .error .checkpointInvalid ∧ Overflow T := by
  have hamong : ∀ a o, (m.insert v.attemptId v).lookup a = some o → T a o := by
    intro a o hlookup
    obtain ⟨rfl, rfl⟩ | ⟨-, hold⟩ := lookup_insert_cases hlookup
    · exact hv
    · exact hm.among a o hold
  unfold addOutcome
  have hsame : ¬ ∃ prior ∈ m.lookup v.attemptId, prior ≠ v := by
    intro ⟨prior, hprior, hne⟩
    exact hne (hT _ _ _ (hm.among _ _ hprior) hv)
  rw [if_neg hsame]
  split
  · next hmany =>
    exact .inr ⟨rfl, _, (m.insert v.attemptId v).keys_nodup, hmany, Within.keys hamong⟩
  · next hfew => exact .inl ⟨rfl, hamong, Nat.le_of_not_lt hfew⟩

/-- What an insertion adds, where the outcomes of an attempt are all equal. -/
theorem lookup_insert_outcome (hT : ∀ a o o', T a o → T a o' → o = o') (hm : Within T m)
    {v : ToolOutcome} (hv : T v.attemptId v) (a : String) (o : ToolOutcome) :
    (m.insert v.attemptId v).lookup a = some o ↔ m.lookup a = some o ∨ (v.attemptId = a ∧ v = o) := by
  constructor
  · intro h
    obtain ⟨rfl, rfl⟩ | ⟨-, hold⟩ := lookup_insert_cases h
    · exact .inr ⟨rfl, rfl⟩
    · exact .inl hold
  · intro h
    by_cases ha : a = v.attemptId
    · subst ha
      rw [AList.lookup_insert]
      obtain hold | ⟨-, rfl⟩ := h
      · rw [hT _ _ _ hv (hm.among _ _ hold)]
      · rfl
    · rw [AList.lookup_insert_ne ha]
      exact h.resolve_right fun hsame => ha hsame.1.symm

/-- The record passes the check of its completion. -/
def SettledBy (marker : CompletionMarker Fp) (record : JournalEnvelope Fp) : Prop :=
  record.eventFingerprint = marker.eventFingerprint ∧ record.state.status = .confirmed ∧
    ∃ v, outcomeOf record.state = some v ∧ ⟨v.destination, v.messageId⟩ ∈ marker.confirmedSends

theorem outcomeOf_attemptId {t : MutationState} {v : ToolOutcome} (h : outcomeOf t = some v) :
    v.attemptId = t.attemptId := by
  unfold outcomeOf at h
  obtain ⟨messageId, -, rfl⟩ := Option.map_eq_some_iff.mp h
  rfl

/-- The loop over the attempts of the event adds their outcomes. -/
theorem settleOutcomes_spec (hT : ∀ a o o', T a o → T a o' → o = o')
    (marker : CompletionMarker Fp) {records : List (JournalEnvelope Fp)}
    (hsettled : ∀ record ∈ records, record.state.eventId = marker.eventId → SettledBy marker record)
    (hrecords : ∀ record ∈ records, record.state.eventId = marker.eventId →
      ∀ v, outcomeOf record.state = some v → T v.attemptId v) (hm : Within T m) :
    (∃ m', settleOutcomes marker records m = .ok m' ∧ Within T m' ∧
        ∀ a o, m'.lookup a = some o ↔ m.lookup a = some o ∨ ∃ record ∈ records,
          record.state.eventId = marker.eventId ∧ record.state.attemptId = a ∧
            outcomeOf record.state = some o) ∨
      settleOutcomes marker records m = .error .checkpointInvalid ∧ Overflow T := by
  induction records generalizing m with
  | nil => exact .inl ⟨m, rfl, hm, by simp⟩
  | cons record rest ih =>
    have hrest := fun r hr => hsettled r (List.mem_cons_of_mem _ hr)
    have hrest' := fun r hr => hrecords r (List.mem_cons_of_mem _ hr)
    unfold settleOutcomes
    by_cases hevent : record.state.eventId = marker.eventId
    · obtain ⟨hfp, hstatus, v, hv, hsend⟩ := hsettled record List.mem_cons_self hevent
      have hTv := hrecords record List.mem_cons_self hevent v hv
      rw [if_neg (not_not.mpr hevent), hv]
      simp only [hfp, hstatus, hsend, ne_eq, not_true_eq_false, or_self, ↓reduceIte]
      obtain ⟨hadd, hinsert⟩ | ⟨hadd, hmany⟩ := addOutcome_spec hT hm hTv
      · rw [hadd]
        obtain ⟨m', hm', hwithin, hlookup⟩ | hfail := ih hrest hrest' hinsert
        · refine .inl ⟨m', hm', hwithin, fun a o => ?_⟩
          rw [hlookup, lookup_insert_outcome hT hm hTv, or_assoc]
          simp [hevent, hv, outcomeOf_attemptId hv]
        · exact .inr hfail
      · rw [hadd]
        exact .inr ⟨rfl, hmany⟩
    · rw [if_pos hevent]
      obtain ⟨m', hm', hwithin, hlookup⟩ | hfail := ih hrest hrest' hm
      · refine .inl ⟨m', hm', hwithin, fun a o => ?_⟩
        rw [hlookup]
        simp [hevent]
      · exact .inr hfail

/-- The outcomes of a checkpoint, added one after another. -/
theorem foldlM_addOutcome_spec (hT : ∀ a o o', T a o → T a o' → o = o')
    {outcomes : List ToolOutcome} (houtcomes : ∀ o ∈ outcomes, T o.attemptId o)
    (hm : Within T m) :
    (∃ m', outcomes.foldlM addOutcome m = .ok m' ∧ Within T m' ∧
        ∀ a o, m'.lookup a = some o ↔ m.lookup a = some o ∨ (o ∈ outcomes ∧ o.attemptId = a)) ∨
      outcomes.foldlM addOutcome m = .error .checkpointInvalid ∧ Overflow T := by
  induction outcomes generalizing m with
  | nil => exact .inl ⟨m, rfl, hm, by simp⟩
  | cons v rest ih =>
    have hTv := houtcomes v List.mem_cons_self
    rw [List.foldlM_cons]
    obtain ⟨hadd, hinsert⟩ | ⟨hadd, hmany⟩ := addOutcome_spec hT hm hTv
    · rw [hadd]
      obtain ⟨m', hm', hwithin, hlookup⟩ | hfail :=
        ih (fun o ho => houtcomes o (List.mem_cons_of_mem _ ho)) hinsert
      · refine .inl ⟨m', hm', hwithin, fun a o => ?_⟩
        have hhead : v.attemptId = a ∧ v = o ↔ o = v ∧ o.attemptId = a := by
          constructor
          · intro ⟨hid, heq⟩
            subst heq
            exact ⟨rfl, hid⟩
          · intro ⟨heq, hid⟩
            subst heq
            exact ⟨hid, rfl⟩
        rw [hlookup, lookup_insert_outcome hT hm hTv, or_assoc, List.mem_cons, or_and_right, hhead]
      · exact .inr hfail
    · rw [hadd]
      exact .inr ⟨rfl, hmany⟩

end Outcomes

/-! ## Reading a produced branch -/

section Reader

variable {binding : SessionBinding} {s : Branch Fp} {T : String → ToolOutcome → Prop}
  {m : Hash ToolOutcome} {last : Nat}

/-- The attempts of a completed event. -/
def Branch.settled (s : Branch Fp) (a : String) (o : ToolOutcome) : Prop :=
  ∃ record, s.records.lookup a = some record ∧ record.state.eventId ∈ s.completed ∧
    outcomeOf record.state = some o

/-- What the reader has after the entries of the branch. -/
structure Branch.Reads (T : String → ToolOutcome → Prop) (m : Hash ToolOutcome) (s : Branch Fp)
    (rd : Reading Fp) : Prop where
  bound : rd.bound = true
  transitions : rd.transitions = s.records
  completed : rd.completedEvents = s.completed
  within : Within T rd.outcomes
  outcomes : ∀ a o, rd.outcomes.lookup a = some o ↔ m.lookup a = some o ∨ s.settled a o

theorem readEntry_plain {e : Entry Fp} (h : e.plain = true) (rd : Reading Fp) :
    readEntry binding last rd e = .ok rd := by
  cases e with
  | other type =>
    have hknown : supported.contains type = true := h
    exact if_neg (Bool.not_eq_false _ ▸ hknown)
  | compaction entry => rfl
  | custom customType =>
    have hforeign : (! controllerPrefix.toList.isPrefixOf customType.toList) = true := h
    exact if_neg (ne_true_of_eq_false (Bool.not_eq_true' _ ▸ hforeign))
  | binding data => cases h
  | mutation record => cases h
  | completion marker => cases h

theorem foldlM_plain {before : List (Entry Fp)} (h : ∀ e ∈ before, e.plain = true)
    (rd : Reading Fp) : before.foldlM (readEntry binding last) rd = .ok rd := by
  induction before with
  | nil => rfl
  | cons e rest ih =>
    rw [List.foldlM_cons, readEntry_plain (h e List.mem_cons_self)]
    exact ih fun e' he' => h e' (List.mem_cons_of_mem _ he')

/-- An element of the values of a map is there under its key. -/
theorem mem_vals {V : Type} {h : Hash V} {v : V} : v ∈ h.vals ↔ ∃ a, h.lookup a = some v := by
  unfold Hash.vals
  constructor
  · intro hv
    obtain ⟨⟨a, w⟩, hentry, rfl⟩ := List.mem_map.mp hv
    exact ⟨a, AList.mem_lookup_iff.mpr hentry⟩
  · intro ⟨a, ha⟩
    exact List.mem_map.mpr ⟨⟨a, v⟩, AList.mem_lookup_iff.mp ha, rfl⟩

/-- Where every value names its key, the values give the keys. -/
theorem vals_map {V : Type} {h : Hash V} {key : V → String}
    (hkeyed : ∀ a v, h.lookup a = some v → key v = a) : h.vals.map key = h.keys := by
  unfold Hash.vals AList.keys List.keys
  rw [List.map_map]
  refine List.map_congr_left fun entry hentry => ?_
  exact hkeyed _ _ (AList.mem_lookup_iff.mpr hentry)

/-- Where every value names its key, no value is there twice. -/
theorem vals_nodup {V : Type} {h : Hash V} {key : V → String}
    (hkeyed : ∀ a v, h.lookup a = some v → key v = a) : h.vals.Nodup :=
  List.Nodup.of_map key (vals_map hkeyed ▸ h.keys_nodup)

/-- Of a list without repetition, one element passes the test. -/
theorem filter_length_one {α : Type} {l : List α} (hl : l.Nodup) {p : α → Prop} [DecidablePred p]
    {x : α} (hx : x ∈ l) (hp : p x) (hone : ∀ y ∈ l, p y → y = x) :
    (l.filter fun y => p y).length = 1 := by
  have hperm : (l.filter fun y => p y).Perm [x] := by
    refine (List.perm_ext_iff_of_nodup (hl.filter _) (List.nodup_singleton x)).mpr fun y => ?_
    rw [List.mem_filter, List.mem_singleton]
    constructor
    · intro ⟨hy, hpy⟩
      exact hone y hy (of_decide_eq_true hpy)
    · intro hy
      subst hy
      exact ⟨hx, decide_eq_true hp⟩
  exact hperm.length_eq

/-- A record of this session that may stand in an open event. -/
structure Admitted (binding : SessionBinding) (rd : Reading Fp) (record : JournalEnvelope Fp) :
    Prop where
  bound : rd.bound = true
  shaped : record.state.shaped = true
  session : record.session = binding
  chat : record.state.canonicalChatId = binding.canonicalChatId
  opened : record.state.eventId ∉ rd.completedEvents

theorem readEntry_attempting {rd : Reading Fp} {record : JournalEnvelope Fp}
    (h : Admitted binding rd record)
    (hfirst : rd.transitions.lookup record.state.attemptId = none)
    (hstatus : record.state.status = .attempting) :
    readEntry binding last rd (.mutation record) =
      .ok { rd with transitions := rd.transitions.insert record.state.attemptId record } := by
  unfold readEntry
  simp only [h.bound, h.shaped, h.session, h.chat, h.opened, hfirst, hstatus]
  simp

theorem readEntry_confirmed {rd : Reading Fp} {record prior : JournalEnvelope Fp}
    (h : Admitted binding rd record)
    (hprior : rd.transitions.lookup record.state.attemptId = some prior)
    (hattempting : prior.state.status = .attempting) (hstatus : record.state.status = .confirmed)
    (hfingerprint : prior.eventFingerprint = record.eventFingerprint)
    (hsame : sameMutation prior.state record.state = true) :
    readEntry binding last rd (.mutation record) =
      .ok { rd with transitions := rd.transitions.insert record.state.attemptId record } := by
  unfold readEntry
  simp only [h.bound, h.shaped, h.session, h.chat, h.opened, hprior, hattempting, hstatus,
    hfingerprint, hsame]
  simp

omit [DecidableEq Fp] in
/-- A send of the marker comes from one attempt, unless two attempts report it. -/
theorem Branch.Inv.matching_length (h : s.Inv binding) (hdistinct : DistinctSends s.entries)
    {event : OpenEvent Fp} {journal : List MutationState} (hjournal : s.Mirrors event.eventId journal)
    {sends : List ConfirmedSend} (hsends : confirmed event.eventId journal = .ok sends)
    {send : ConfirmedSend} (hsend : send ∈ sends) {sequence : Nat} :
    (matching ⟨event.eventId, event.eventFingerprint, binding.canonicalChatId, sequence, sends⟩
      send s.records).length = 1 := by
  have hall := confirmed_ok hsends
  unfold confirmed at hsends
  split at hsends
  · cases hsends
  · cases hsends
    rw [List.mem_eraseDups, List.mem_filterMap] at hsend
    obtain ⟨t, ht, hsend⟩ := hsend
    obtain ⟨messageId, hmessage, rfl⟩ := Option.map_eq_some_iff.mp hsend
    obtain ⟨hevent, hstatus⟩ := hall t ht
    obtain ⟨a, record, hrecord, heq⟩ := hjournal.recorded t ht
    have hconfirmed : record.state.status = .confirmed := by
      rw [← heq]
      exact hstatus
    refine filter_length_one (vals_nodup h.keyed) (mem_vals.mpr ⟨a, hrecord⟩) ⟨?_, hconfirmed, ?_⟩ ?_
    · rw [← heq]
      exact hevent
    · rw [← heq]
      exact ⟨rfl, hmessage.symm⟩
    · intro other hother ⟨hevent', hstatus', hdestination, hmessage'⟩
      obtain ⟨b, hb⟩ := mem_vals.mp hother
      have hsame := hdistinct _ (h.recorded b other hb hstatus') _
        (h.recorded a record hrecord hconfirmed) ?_ ?_ ?_
      · rw [h.keyed b other hb, h.keyed a record hrecord] at hsame
        rw [hsame, hrecord] at hb
        exact (Option.some.inj hb).symm
      · rw [hevent', ← heq]
        exact hevent.symm
      · rw [← hdestination, ← heq]
      · rw [← hmessage', ← heq]
        exact hmessage.symm

/-- A new attempt of the event in its turn is read. -/
theorem Branch.Reads.begin (h : s.Inv binding) {rd : Reading Fp} (hrd : s.Reads T m rd)
    {event : OpenEvent Fp} (hcurrent : s.current = some event) {attempt : MutationState}
    (hnew : s.records.lookup attempt.attemptId = none) (hshaped : attempt.shaped = true)
    (hstatus : attempt.status = .attempting) (hevent : attempt.eventId = event.eventId)
    (hchat : attempt.canonicalChatId = binding.canonicalChatId) :
    ∃ rd', readEntry binding last rd (.mutation ⟨event.eventFingerprint, binding, attempt⟩) =
        .ok rd' ∧
      ({ s with
        entries := s.entries ++ [.mutation ⟨event.eventFingerprint, binding, attempt⟩]
        records := s.records.insert attempt.attemptId ⟨event.eventFingerprint, binding, attempt⟩ } :
        Branch Fp).Reads T m rd' := by
  have hfresh : attempt.eventId ∉ rd.completedEvents := by
    rw [hrd.completed, hevent]
    exact h.fresh event hcurrent
  refine ⟨_, readEntry_attempting ⟨hrd.bound, hshaped, rfl, hchat, hfresh⟩
    (hrd.transitions ▸ hnew) hstatus, hrd.bound, ?_, hrd.completed, hrd.within, ?_⟩
  · show rd.transitions.insert _ _ = _
    rw [hrd.transitions]
  · intro a o
    rw [hrd.outcomes]
    refine or_congr_right ?_
    -- The event of the attempt is not completed.
    constructor
    · intro ⟨record, hrecord, hdone, ho⟩
      have hne : a ≠ attempt.attemptId := by
        intro heq
        rw [heq, hnew] at hrecord
        cases hrecord
      exact ⟨record, (AList.lookup_insert_ne hne).trans hrecord, hdone, ho⟩
    · intro ⟨record, hrecord, hdone, ho⟩
      obtain ⟨-, rfl⟩ | ⟨-, hold⟩ := lookup_insert_cases hrecord
      · exact absurd (hrd.completed ▸ hdone) hfresh
      · exact ⟨record, hold, hdone, ho⟩

/-- The confirmation of an attempt is read. -/
theorem Branch.Reads.confirm (h : s.Inv binding) {rd : Reading Fp} (hrd : s.Reads T m rd)
    {a : String} {record : JournalEnvelope Fp} (hrecord : s.records.lookup a = some record)
    (hstatus : record.state.status = .attempting) (messageId finishedAt : String) :
    ∃ rd', readEntry binding last rd (.mutation { record with
          state := record.state.settle (.confirmed messageId finishedAt) }) = .ok rd' ∧
      ({ s with
        entries := s.entries ++ [.mutation { record with
          state := record.state.settle (.confirmed messageId finishedAt) }]
        records := s.records.insert a { record with
          state := record.state.settle (.confirmed messageId finishedAt) } } :
        Branch Fp).Reads T m rd' := by
  obtain rfl := h.keyed a record hrecord
  have hshaped := settle_shaped (h.shaped _ _ hrecord) hstatus messageId finishedAt
  obtain ⟨hsession, hchat⟩ := h.bound _ _ hrecord
  have hopen : record.state.eventId ∉ s.completed := by
    obtain ⟨-, hconfirmed⟩ | ⟨event, hcurrent, hevent, -⟩ := h.owned _ _ hrecord
    · rw [hstatus] at hconfirmed
      cases hconfirmed
    · rw [hevent]
      exact h.fresh event hcurrent
  have hsame : sameMutation record.state
      (record.state.settle (.confirmed messageId finishedAt)) = true := by
    unfold sameMutation
    simp [MutationState.settle]
  refine ⟨_, readEntry_confirmed ⟨hrd.bound, hshaped, hsession, hchat, hrd.completed ▸ hopen⟩
    (hrd.transitions ▸ hrecord) hstatus rfl rfl hsame, hrd.bound, ?_, hrd.completed, hrd.within,
    ?_⟩
  · show rd.transitions.insert _ _ = _
    rw [hrd.transitions]
    rfl
  · intro b o
    rw [hrd.outcomes]
    refine or_congr_right ?_
    constructor
    · rintro ⟨other, hother, hdone, ho⟩
      have hne : b ≠ record.state.attemptId := by
        intro heq
        rw [heq, hrecord] at hother
        cases hother
        exact hopen hdone
      exact ⟨other, (AList.lookup_insert_ne hne).trans hother, hdone, ho⟩
    · rintro ⟨other, hother, hdone, ho⟩
      obtain ⟨-, rfl⟩ | ⟨-, hold⟩ := lookup_insert_cases hother
      · exact absurd hdone hopen
      · exact ⟨other, hold, hdone, ho⟩

omit [DecidableEq Fp] in
/-- The attempts of an event in its turn pass the check of its completion. -/
theorem Branch.Inv.settledBy (h : s.Inv binding) {event : OpenEvent Fp}
    (hcurrent : s.current = some event) {journal : List MutationState}
    (hjournal : s.Mirrors event.eventId journal) {sends : List ConfirmedSend}
    (hsends : confirmed event.eventId journal = .ok sends) {sequence : Nat} {a : String}
    {record : JournalEnvelope Fp} (hrecord : s.records.lookup a = some record)
    (hevent : record.state.eventId = event.eventId) :
    SettledBy ⟨event.eventId, event.eventFingerprint, binding.canonicalChatId, sequence, sends⟩
      record := by
  obtain ⟨t, ht, heq⟩ := hjournal.journalled a record hrecord hevent
  have hstatus : record.state.status = .confirmed := by
    rw [← heq]
    exact (confirmed_ok hsends t ht).2
  have hfingerprint : record.eventFingerprint = event.eventFingerprint := by
    obtain ⟨hdone, -⟩ | ⟨event', hcurrent', -, hfp⟩ := h.owned a record hrecord
    · rw [hevent] at hdone
      exact absurd hdone (h.fresh event hcurrent)
    · rw [hcurrent] at hcurrent'
      cases hcurrent'
      exact hfp
  obtain ⟨v, hv⟩ := Option.isSome_iff_exists.mp
    ((outcomeOf_of_shaped (h.shaped a record hrecord)).mpr hstatus)
  refine ⟨hfingerprint, hstatus, v, hv, ?_⟩
  obtain ⟨messageId, hmessage, rfl⟩ := Option.map_eq_some_iff.mp hv
  unfold confirmed at hsends
  split at hsends
  · cases hsends
  · cases hsends
    rw [List.mem_eraseDups, List.mem_filterMap]
    refine ⟨t, ht, ?_⟩
    have hmessage' : t.messageId = some messageId := by
      rw [← hmessage, ← heq]
    have hdestination : t.destination = record.state.destination := by
      rw [← heq]
    rw [hmessage', hdestination]
    rfl

/-- The completion of the event in its turn is read, or there are too many
outcomes. -/
theorem Branch.Reads.complete (h : s.Inv binding) (hdistinct : DistinctSends s.entries)
    (hT : ∀ a o o', T a o → T a o' → o = o')
    (hconfirmed : ∀ t ∈ confirmedMutations s.entries, ∀ o, outcomeOf t = some o → T o.attemptId o)
    {rd : Reading Fp} (hrd : s.Reads T m rd) {event : OpenEvent Fp}
    (hcurrent : s.current = some event) {journal : List MutationState}
    (hjournal : s.Mirrors event.eventId journal) {sends : List ConfirmedSend}
    (hsends : confirmed event.eventId journal = .ok sends) (hlast : s.sequence + 1 ≤ last) :
    (∃ rd', readEntry binding last rd (.completion ⟨event.eventId, event.eventFingerprint,
          binding.canonicalChatId, s.sequence + 1, sends⟩) = .ok rd' ∧
      ({ s with
        entries := s.entries ++ [.completion ⟨event.eventId, event.eventFingerprint,
          binding.canonicalChatId, s.sequence + 1, sends⟩]
        completed := s.completed ++ [event.eventId]
        sequence := s.sequence + 1
        current := none } : Branch Fp).Reads T m rd') ∨
      readEntry binding last rd (.completion ⟨event.eventId, event.eventFingerprint,
          binding.canonicalChatId, s.sequence + 1, sends⟩) = .error .checkpointInvalid ∧
        Overflow T := by
  have hsettled : ∀ record ∈ rd.transitions.vals, record.state.eventId = event.eventId →
      SettledBy ⟨event.eventId, event.eventFingerprint, binding.canonicalChatId, s.sequence + 1,
        sends⟩ record := by
    intro record hmem hevent
    obtain ⟨a, ha⟩ := mem_vals.mp hmem
    exact h.settledBy hcurrent hjournal hsends (hrd.transitions ▸ ha) hevent
  have hamong : ∀ record ∈ rd.transitions.vals, record.state.eventId = event.eventId →
      ∀ v, outcomeOf record.state = some v → T v.attemptId v := by
    intro record hmem hevent v hv
    obtain ⟨a, ha⟩ := mem_vals.mp hmem
    exact hconfirmed _ (h.recorded a record (hrd.transitions ▸ ha) (hsettled record hmem hevent).2.1)
      v hv
  have hopen : ¬ (rd.bound = false ∨ binding.canonicalChatId ≠ binding.canonicalChatId ∨
      last < s.sequence + 1 ∨ event.eventId ∈ rd.completedEvents) := by
    rw [hrd.bound, hrd.completed]
    have hfresh := h.fresh event hcurrent
    simp only [Bool.true_eq_false, ne_eq, not_true_eq_false, false_or, not_or]
    exact ⟨by omega, hfresh⟩
  unfold readEntry
  simp only [if_neg hopen]
  obtain ⟨m', hm', hwithin, hlookup⟩ | ⟨hfail, hmany⟩ :=
    settleOutcomes_spec hT ⟨event.eventId, event.eventFingerprint, binding.canonicalChatId,
      s.sequence + 1, sends⟩ hsettled hamong hrd.within
  · rw [hm']
    have hone : ¬ ∃ send ∈ sends, (matching ⟨event.eventId, event.eventFingerprint,
        binding.canonicalChatId, s.sequence + 1, sends⟩ send rd.transitions).length ≠ 1 := by
      intro ⟨send, hsend, hne⟩
      rw [hrd.transitions] at hne
      exact hne (h.matching_length hdistinct hjournal hsends hsend)
    refine .inl ⟨{ rd with
      completedEvents := rd.completedEvents ++ [event.eventId], outcomes := m' }, if_neg hone,
      hrd.bound, hrd.transitions, ?_, hwithin, fun a o => ?_⟩
    · show rd.completedEvents ++ _ = _
      rw [hrd.completed]
    · show m'.lookup a = some o ↔ _
      rw [hlookup, hrd.outcomes, or_assoc]
      refine or_congr_right ?_
      constructor
      · intro hor
        obtain ⟨record, hrecord, hdone, ho⟩ | ⟨record, hmem, hevent, ha, ho⟩ := hor
        · exact ⟨record, hrecord, List.mem_append_left _ hdone, ho⟩
        · obtain ⟨b, hb⟩ := mem_vals.mp hmem
          rw [hrd.transitions] at hb
          rw [h.keyed b record hb] at ha
          subst ha
          exact ⟨record, hb, List.mem_append_right _ (by simp [hevent]), ho⟩
      · intro ⟨record, hrecord, hdone, ho⟩
        rcases List.mem_append.mp hdone with hdone | hdone
        · exact .inl ⟨record, hrecord, hdone, ho⟩
        · refine .inr ⟨record, mem_vals.mpr ⟨a, hrd.transitions ▸ hrecord⟩,
            List.mem_singleton.mp hdone, h.keyed a record hrecord, ho⟩
  · rw [hfail]
    exact .inr ⟨rfl, hmany⟩

/-- The reader has followed the writer, or there are too many outcomes. -/
def Branch.Followed (binding : SessionBinding) (last : Nat) (T : String → ToolOutcome → Prop)
    (m : Hash ToolOutcome) (s : Branch Fp) : Prop :=
  (∃ rd, s.entries.foldlM (readEntry binding last) ⟨false, ∅, [], m⟩ = .ok rd ∧ s.Reads T m rd) ∨
    s.entries.foldlM (readEntry binding last) ⟨false, ∅, [], m⟩ = .error .checkpointInvalid ∧
      Overflow T

/-- The reader takes one more entry as the writer has written it. -/
theorem Branch.Followed.snoc (h : s.Followed binding last T m) {s' : Branch Fp} {e : Entry Fp}
    (hentries : s'.entries = s.entries ++ [e])
    (hstep : ∀ rd, s.Reads T m rd →
      (∃ rd', readEntry binding last rd e = .ok rd' ∧ s'.Reads T m rd') ∨
        readEntry binding last rd e = .error .checkpointInvalid ∧ Overflow T) :
    s'.Followed binding last T m := by
  unfold Branch.Followed
  rw [hentries, List.foldlM_append]
  obtain ⟨rd, hrd, hreads⟩ | ⟨hfail, hmany⟩ := h
  · rw [hrd]
    show (∃ rd', (readEntry binding last rd e >>= pure) = .ok rd' ∧ _) ∨
      (readEntry binding last rd e >>= pure) = _ ∧ _
    rw [bind_pure]
    exact hstep rd hreads
  · rw [hfail]
    exact .inr ⟨rfl, hmany⟩

omit [DecidableEq Fp] in
/-- What has been read does not depend on the entries, once they are read. -/
theorem Branch.Reads.congr {rd : Reading Fp} (h : s.Reads T m rd) {s' : Branch Fp}
    (hrecords : s'.records = s.records) (hcompleted : s'.completed = s.completed) :
    s'.Reads T m rd := by
  refine ⟨h.bound, h.transitions.trans hrecords.symm, h.completed.trans hcompleted.symm, h.within,
    fun a o => ?_⟩
  unfold Branch.settled
  rw [hrecords, hcompleted]
  exact h.outcomes a o

omit [DecidableEq Fp] in
theorem mem_confirmedMutations_snoc {entries : List (Entry Fp)} {e : Entry Fp} {t : MutationState}
    (h : t ∈ confirmedMutations entries) : t ∈ confirmedMutations (entries ++ [e]) := by
  rw [confirmedMutations_snoc]
  exact List.mem_append_left _ h

omit [DecidableEq Fp] in
theorem DistinctSends.init {entries : List (Entry Fp)} {e : Entry Fp}
    (h : DistinctSends (entries ++ [e])) : DistinctSends entries :=
  fun t ht u hu => h t (mem_confirmedMutations_snoc ht) u (mem_confirmedMutations_snoc hu)

/-- The reader follows the writer. -/
theorem Branch.Produced.followed (h : s.Produced binding) (hdistinct : DistinctSends s.entries)
    (hT : ∀ a o o', T a o → T a o' → o = o')
    (hconfirmed : ∀ t ∈ confirmedMutations s.entries, ∀ o, outcomeOf t = some o → T o.attemptId o)
    (hm : Within T m) (hlast : s.sequence ≤ last) : s.Followed binding last T m := by
  induction h with
  | @bound before hplain =>
    refine .inl ⟨⟨true, ∅, [], m⟩, ?_, rfl, rfl, rfl, hm, fun a o => ?_⟩
    · rw [List.foldlM_append, foldlM_plain hplain]
      show (readEntry binding last ⟨false, ∅, [], m⟩ (.binding binding) >>= _) = _
      unfold readEntry
      simp
    · simp [Branch.settled]
  | plain _ hplain ih =>
    have hread := ih hdistinct.init (fun t ht => hconfirmed t (mem_confirmedMutations_snoc ht)) hlast
    exact hread.snoc rfl fun rd hrd => .inl ⟨rd, readEntry_plain hplain rd, hrd.congr rfl rfl⟩
  | turn _ _ _ ih =>
    obtain ⟨rd, hrd, hreads⟩ | hfail := ih hdistinct hconfirmed hlast
    · exact .inl ⟨rd, hrd, hreads.congr rfl rfl⟩
    · exact .inr hfail
  | begin past hcurrent hnew hshaped hstatus hevent hchat ih =>
    have hread := ih hdistinct.init (fun t ht => hconfirmed t (mem_confirmedMutations_snoc ht)) hlast
    exact hread.snoc rfl fun rd hrd =>
      .inl (hrd.begin past.inv hcurrent hnew hshaped hstatus hevent hchat)
  | confirm past hrecord hstatus messageId finishedAt ih =>
    have hread := ih hdistinct.init (fun t ht => hconfirmed t (mem_confirmedMutations_snoc ht)) hlast
    exact hread.snoc rfl fun rd hrd =>
      .inl (hrd.confirm past.inv hrecord hstatus messageId finishedAt)
  | complete past hcurrent hjournal hsends hsafe ih =>
    have hprior := fun t ht => hconfirmed t (mem_confirmedMutations_snoc ht)
    have hread := ih hdistinct.init hprior (Nat.le_of_succ_le hlast)
    exact hread.snoc rfl fun rd hrd =>
      hrd.complete past.inv hdistinct.init hT hprior hcurrent hjournal hsends hlast
  | compact _ _ entry _ _ _ ih =>
    have hread := ih hdistinct.init (fun t ht => hconfirmed t (mem_confirmedMutations_snoc ht)) hlast
    exact hread.snoc rfl fun rd hrd => .inl ⟨rd, rfl, hrd.congr rfl rfl⟩
  | abort _ ih =>
    obtain ⟨rd, hrd, hreads⟩ | hfail := ih hdistinct hconfirmed hlast
    · exact .inl ⟨rd, hrd, hreads.congr rfl rfl⟩
    · exact .inr hfail

end Reader

/-! ## The history of a branch at rest -/

section History

variable {binding : SessionBinding} {s : Branch Fp}

/-- The outcome of the attempt on the branch. -/
def Branch.outcome (s : Branch Fp) (a : String) (o : ToolOutcome) : Prop :=
  o.attemptId = a ∧ ∃ t ∈ confirmedMutations s.entries, outcomeOf t = some o

omit [DecidableEq Fp] in
theorem Branch.Inv.outcome_unique (h : s.Inv binding) (a : String) (o o' : ToolOutcome)
    (ho : s.outcome a o) (ho' : s.outcome a o') : o = o' := by
  obtain ⟨hid, t, ht, hto⟩ := ho
  obtain ⟨hid', t', ht', hto'⟩ := ho'
  have hsame : t.attemptId = t'.attemptId := by
    rw [← outcomeOf_attemptId hto, ← outcomeOf_attemptId hto', hid, hid']
  obtain rfl := List.inj_on_of_nodup_map h.distinct ht ht' hsame
  rw [hto] at hto'
  exact Option.some.inj hto'

omit [DecidableEq Fp] in
/-- More outcomes than fit are more confirmed mutations than fit. -/
theorem Branch.overflow_length (h : Overflow s.outcome) :
    maxOutcomes < (confirmedMutations s.entries).length := by
  obtain ⟨keys, hnodup, hmany, hkeys⟩ := h
  have hsub : keys ⊆ (confirmedMutations s.entries).map MutationState.attemptId := by
    intro a ha
    obtain ⟨o, hid, t, ht, ho⟩ := hkeys a ha
    refine List.mem_map.mpr ⟨t, ht, ?_⟩
    rw [← outcomeOf_attemptId ho, hid]
  have hlength := (List.subperm_of_subset hnodup hsub).length_le
  rw [List.length_map] at hlength
  omega

omit [DecidableEq Fp] in
/-- At rest, every attempt is a confirmed one of a completed event. -/
theorem Branch.Inv.done (h : s.Inv binding) (hidle : s.current = none) {a : String}
    {record : JournalEnvelope Fp} (hrecord : s.records.lookup a = some record) :
    record.state.eventId ∈ s.completed ∧ record.state.status = .confirmed := by
  obtain hdone | ⟨event, hcurrent, -⟩ := h.owned a record hrecord
  · exact hdone
  · rw [hidle] at hcurrent
    cases hcurrent

omit [DecidableEq Fp] in
/-- At rest, the outcomes of the branch are those of its settled attempts. -/
theorem Branch.Inv.settled_iff (h : s.Inv binding) (hidle : s.current = none) (a : String)
    (o : ToolOutcome) : s.settled a o ↔ s.outcome a o := by
  constructor
  · intro ⟨record, hrecord, _, ho⟩
    refine ⟨?_, record.state, h.recorded a record hrecord (h.done hidle hrecord).2, ho⟩
    rw [outcomeOf_attemptId ho, h.keyed a record hrecord]
  · intro ⟨hid, t, ht, ho⟩
    obtain ⟨-, record, hrecord, rfl⟩ := h.held t ht
    rw [outcomeOf_attemptId ho] at hid
    rw [hid] at hrecord
    exact ⟨record, hrecord, (h.done hidle hrecord).1, ho⟩

/-- The checkpoint is one of this chat, about a part of the branch. -/
structure Branch.Checkpointed (binding : SessionBinding) (s : Branch Fp) (c : CheckpointV1) :
    Prop where
  chat : c.canonicalChatId = binding.canonicalChatId
  sequence : c.lastCompletedSequence ≤ s.sequence
  outcomes : ∀ o ∈ c.confirmedToolOutcomes, s.outcome o.attemptId o

omit [DecidableEq Fp] in
theorem Branch.Inv.prior (h : s.Inv binding)
    (hcheckpoint : ∀ c, s.checkpoint = some c → s.Checkpointed binding c) :
    (∃ m, priorOutcomes binding s.sequence s.checkpoint = .ok m ∧ Within s.outcome m ∧
        ∀ a o, m.lookup a = some o →
          ∃ c, s.checkpoint = some c ∧ o ∈ c.confirmedToolOutcomes) ∨
      priorOutcomes binding s.sequence s.checkpoint = .error .checkpointInvalid ∧
        Overflow s.outcome := by
  cases hc : s.checkpoint with
  | none => exact .inl ⟨∅, rfl, Within.empty, by simp⟩
  | some c =>
    have hof := hcheckpoint c hc
    have hown : ¬ (c.canonicalChatId ≠ binding.canonicalChatId ∨
        s.sequence < c.lastCompletedSequence) := by
      have hsequence := hof.sequence
      simp only [hof.chat, ne_eq, not_true_eq_false, false_or]
      omega
    unfold priorOutcomes
    simp only [if_neg hown]
    obtain ⟨m, hm, hwithin, hlookup⟩ | hfail :=
      foldlM_addOutcome_spec h.outcome_unique hof.outcomes Within.empty
    · refine .inl ⟨m, hm, hwithin, fun a o ho => ⟨c, rfl, ?_⟩⟩
      obtain hempty | ⟨hmem, -⟩ := (hlookup a o).mp ho
      · simp at hempty
      · exact hmem
    · exact .inr hfail

/-- The history of a branch at rest, with the checkpoint it starts from. -/
structure Branch.History (s : Branch Fp) (r : List ToolOutcome) : Prop where
  sorted : r.Pairwise fun a b => a.attemptId < b.attemptId
  complete : ∀ o, o ∈ r ↔ (∃ c, s.checkpoint = some c ∧ o ∈ c.confirmedToolOutcomes) ∨
    ∃ t ∈ confirmedMutations s.entries, outcomeOf t = some o

omit [DecidableEq Fp] in
/-- The values of the outcomes, sorted. -/
theorem Branch.history_sorted {m : Hash ToolOutcome} (hm : Within s.outcome m) :
    (m.vals.insertionSort fun a b => a.attemptId ≤ b.attemptId).Pairwise
      fun a b => a.attemptId < b.attemptId := by
  have hkeys : m.vals.map ToolOutcome.attemptId = m.keys := vals_map fun a o ho => (hm.among a o ho).1
  have hperm := List.perm_insertionSort (fun a b : ToolOutcome => a.attemptId ≤ b.attemptId) m.vals
  have hnodup : ((m.vals.insertionSort fun a b => a.attemptId ≤ b.attemptId).map
      ToolOutcome.attemptId).Nodup := by
    rw [(hperm.map ToolOutcome.attemptId).nodup_iff, hkeys]
    exact m.keys_nodup
  have hle := List.pairwise_insertionSort (fun a b : ToolOutcome => a.attemptId ≤ b.attemptId) m.vals
  exact (hle.and (List.pairwise_map.mp hnodup)).imp fun ⟨hle, hne⟩ => lt_of_le_of_ne hle hne

theorem Branch.Produced.history_of_checkpoint (h : s.Produced binding) (hidle : s.current = none)
    (hdistinct : DistinctSends s.entries)
    (hcheckpoint : ∀ c, s.checkpoint = some c → s.Checkpointed binding c) :
    (s.entries.length ≤ maxEntries ∧ (confirmedMutations s.entries).length ≤ maxOutcomes ∧
        ∃ r, confirmedHistory s.entries binding s.sequence s.checkpoint = .ok r ∧ s.History r) ∨
      (¬ (s.entries.length ≤ maxEntries ∧
          (confirmedMutations s.entries).length ≤ maxOutcomes) ∧
        confirmedHistory s.entries binding s.sequence s.checkpoint = .error .checkpointInvalid) := by
  have hinv := h.inv
  unfold confirmedHistory
  by_cases hlength : s.entries.length ≤ maxEntries
  · have hsmall : ¬ (maxSafeInteger < s.sequence ∨ maxEntries < s.entries.length) := by
      have hsafe := hinv.safe
      omega
    rw [if_neg hsmall]
    have hover : Overflow s.outcome →
        ¬ (s.entries.length ≤ maxEntries ∧ (confirmedMutations s.entries).length ≤ maxOutcomes) := by
      intro hmany hboth
      have hlarge := Branch.overflow_length hmany
      omega
    obtain ⟨m, hm, hwithin, hmlookup⟩ | ⟨hfail, hmany⟩ := hinv.prior hcheckpoint
    · have hconfirmed : ∀ t ∈ confirmedMutations s.entries, ∀ o, outcomeOf t = some o →
          s.outcome o.attemptId o := fun t ht o ho => ⟨rfl, t, ht, ho⟩
      obtain ⟨rd, hrd, hreads⟩ | ⟨hfail, hmany⟩ :=
        h.followed hdistinct hinv.outcome_unique hconfirmed hwithin le_rfl
      · have hrest : ¬ (rd.bound = false ∨ ∃ record ∈ rd.transitions.vals,
            record.state.status ≠ .confirmed ∨ record.state.eventId ∉ rd.completedEvents) := by
          rw [hreads.bound, hreads.transitions, hreads.completed]
          intro hbad
          obtain hbound | ⟨record, hrecord, hbad⟩ := hbad
          · cases hbound
          · obtain ⟨a, ha⟩ := mem_vals.mp hrecord
            obtain ⟨hdone, hstatus⟩ := hinv.done hidle ha
            exact hbad.elim (fun hne => hne hstatus) fun hne => hne hdone
        refine .inl ⟨hlength, ?_, rd.outcomes.vals.insertionSort fun a b => a.attemptId ≤ b.attemptId,
          ?_, Branch.history_sorted hreads.within, fun o => ?_⟩
        · have hsub : (confirmedMutations s.entries).map MutationState.attemptId ⊆
              rd.outcomes.keys := by
            intro a ha
            obtain ⟨t, ht, rfl⟩ := List.mem_map.mp ha
            obtain ⟨hstatus, record, hrecord, rfl⟩ := hinv.held t ht
            obtain ⟨o, ho⟩ := Option.isSome_iff_exists.mp
              ((outcomeOf_of_shaped (hinv.shaped _ record hrecord)).mpr hstatus)
            have houtcome : s.outcome record.state.attemptId o :=
              ⟨outcomeOf_attemptId ho, record.state, ht, ho⟩
            refine AList.lookup_isSome.mp (Option.isSome_iff_exists.mpr ⟨o, ?_⟩)
            exact (hreads.outcomes _ o).mpr (.inr ((hinv.settled_iff hidle _ o).mpr houtcome))
          have hfew := (List.subperm_of_subset hinv.distinct hsub).length_le
          rw [List.length_map] at hfew
          exact hfew.trans hreads.within.fits
        · simp only [hm, hrd, bind, Except.bind, if_neg hrest]
        · rw [List.mem_insertionSort, mem_vals]
          constructor
          · intro ⟨a, ho⟩
            obtain hprior | hsettled := (hreads.outcomes a o).mp ho
            · exact .inl (hmlookup a o hprior)
            · exact .inr ((hinv.settled_iff hidle a o).mp hsettled).2
          · intro ho
            have houtcome : s.outcome o.attemptId o := by
              obtain ⟨c, hc, ho⟩ | ho := ho
              · exact (hcheckpoint c hc).outcomes o ho
              · exact ⟨rfl, ho⟩
            exact ⟨o.attemptId,
              (hreads.outcomes _ o).mpr (.inr ((hinv.settled_iff hidle _ o).mpr houtcome))⟩
      · refine .inr ⟨hover hmany, ?_⟩
        simp only [hm, hfail, bind, Except.bind]
    · refine .inr ⟨hover hmany, ?_⟩
      simp only [hfail, bind, Except.bind]
  · have hlarge : maxSafeInteger < s.sequence ∨ maxEntries < s.entries.length := by
      omega
    rw [if_pos hlarge]
    exact .inr ⟨fun hboth => hlength hboth.1, rfl⟩

omit [DecidableEq Fp] in
/-- A checkpoint stays one of a part of the branch. -/
theorem Branch.Checkpointed.mono {c : CheckpointV1} (h : s.Checkpointed binding c) {s' : Branch Fp}
    (hsequence : s.sequence ≤ s'.sequence)
    (hentries : ∀ t ∈ confirmedMutations s.entries, t ∈ confirmedMutations s'.entries) :
    s'.Checkpointed binding c := by
  refine ⟨h.chat, h.sequence.trans hsequence, fun o ho => ?_⟩
  obtain ⟨hid, t, ht, houtcome⟩ := h.outcomes o ho
  exact ⟨hid, t, hentries t ht, houtcome⟩

/-- The outcomes of every checkpoint come from the branch it was made of. -/
theorem Branch.Produced.checkpointed (h : s.Produced binding) (hdistinct : DistinctSends s.entries) :
    ∀ c, s.checkpoint = some c → s.Checkpointed binding c := by
  induction h with
  | bound _ => exact nofun
  | plain _ _ ih =>
    exact fun c hc => (ih hdistinct.init c hc).mono le_rfl fun _ => mem_confirmedMutations_snoc
  | turn _ _ _ ih => exact fun c hc => (ih hdistinct c hc).mono le_rfl fun _ ht => ht
  | begin _ _ _ _ _ _ _ ih =>
    exact fun c hc => (ih hdistinct.init c hc).mono le_rfl fun _ => mem_confirmedMutations_snoc
  | confirm _ _ _ _ _ ih =>
    exact fun c hc => (ih hdistinct.init c hc).mono le_rfl fun _ => mem_confirmedMutations_snoc
  | complete _ _ _ _ _ ih =>
    exact fun c hc => (ih hdistinct.init c hc).mono (Nat.le_succ _)
      fun _ => mem_confirmedMutations_snoc
  | @compact s past hidle checkpoint entry hchat hsequence hhistory ih =>
    intro c hc
    cases hc
    refine ⟨hchat, hsequence.le, fun o ho => ?_⟩
    obtain ⟨-, -, r, hr, hhistory'⟩ | ⟨-, hfail⟩ :=
      past.history_of_checkpoint hidle hdistinct.init (ih hdistinct.init)
    · rw [hr] at hhistory
      cases hhistory
      obtain ⟨c, hc, ho⟩ | ⟨t, ht, ho⟩ := (hhistory'.complete o).mp ho
      · obtain ⟨hid, t, ht, houtcome⟩ := (ih hdistinct.init c hc).outcomes o ho
        exact ⟨hid, t, mem_confirmedMutations_snoc ht, houtcome⟩
      · exact ⟨rfl, t, mem_confirmedMutations_snoc ht, ho⟩
    · rw [hfail] at hhistory
      cases hhistory
  | abort _ _ => exact nofun

/-- The history of a branch at rest succeeds within the bounds on entries and on
outcomes, where no two attempts of one event report the same send.  It holds the
outcomes of the checkpoint and of every confirmed mutation, sorted by attempt. -/
theorem confirmed_history_complete (h : s.Produced binding) (hidle : s.current = none)
    (hdistinct : DistinctSends s.entries) :
    if s.entries.length ≤ maxEntries ∧ (confirmedMutations s.entries).length ≤ maxOutcomes then
      ∃ r, confirmedHistory s.entries binding s.sequence s.checkpoint = .ok r ∧ s.History r
    else confirmedHistory s.entries binding s.sequence s.checkpoint = .error .checkpointInvalid := by
  obtain ⟨hlength, hfew, hhistory⟩ | ⟨hmany, hfail⟩ :=
    h.history_of_checkpoint hidle hdistinct (h.checkpointed hdistinct)
  · rw [if_pos ⟨hlength, hfew⟩]
    exact hhistory
  · rw [if_neg hmany]
    exact hfail

end History

/-! ## Sample branches -/

/-- A session of the sample chat. -/
def sampleBinding : SessionBinding := ⟨"1@g.us", "session-1", "/sessions/1.jsonl"⟩

/-- A reply of the agent. -/
def sampleMutation (attemptId : String) : MutationState :=
  ⟨attemptId, "event-1", "1@g.us", attemptId, "send_group_message", "1@g.us", "2026-01-01T00:00:01Z",
    ⟨⟨"app-1", "1", 9⟩, ⟨"chat-1", "1", 9⟩⟩, .attempting, none, none, none⟩

/-- The sample event in its turn, without an attempt. -/
def sampleTurn : Branch Nat := ⟨[.binding sampleBinding], ∅, [], 0, some ⟨"event-1", 1⟩, none⟩

/-- A record of the sample event. -/
def sampleRecord (state : MutationState) : JournalEnvelope Nat := ⟨1, sampleBinding, state⟩

/-- The attempt, confirmed with the message id that all of them report. -/
def sampleSent (attemptId : String) : MutationState :=
  (sampleMutation attemptId).settle (.confirmed "message-1" "2026-01-01T00:00:02Z")

/-- The branch after the attempts of the list, each with its confirmation. -/
def sampleSends (s : Branch Nat) : List String → Branch Nat
  | [] => s
  | a :: rest => sampleSends { s with
      entries := s.entries ++ [.mutation (sampleRecord (sampleMutation a))] ++
        [.mutation (sampleRecord (sampleSent a))]
      records := (s.records.insert a (sampleRecord (sampleMutation a))).insert a
        (sampleRecord (sampleSent a)) } rest

/-- The branch after the event, with the marker that reports its one message. -/
def sampleCompleted (s : Branch Nat) : Branch Nat :=
  { s with
    entries := s.entries ++
      [.completion ⟨"event-1", 1, "1@g.us", s.sequence + 1, [⟨"1@g.us", "message-1"⟩]⟩]
    completed := s.completed ++ ["event-1"]
    sequence := s.sequence + 1
    current := none }

theorem sampleTurn_produced : sampleTurn.Produced sampleBinding := by
  have hplain : ∀ e ∈ ([] : List (Entry Nat)), e.plain = true := nofun
  exact .turn (.bound hplain) rfl nofun

theorem sampleSends_one : (sampleSends sampleTurn ["attempt-1"]).Produced sampleBinding :=
  .confirm (.begin sampleTurn_produced rfl rfl rfl rfl rfl rfl) (AList.lookup_insert _) rfl _ _

theorem sampleSends_two :
    (sampleSends sampleTurn ["attempt-1", "attempt-2"]).Produced sampleBinding :=
  .confirm (.begin sampleSends_one rfl rfl rfl rfl rfl rfl) (AList.lookup_insert _) rfl _ _

theorem sampleSends_lookup (attempts : List String) (s : Branch Nat) (a : String) :
    (sampleSends s attempts).records.lookup a =
      if a ∈ attempts then some (sampleRecord (sampleSent a)) else s.records.lookup a := by
  induction attempts generalizing s with
  | nil => rfl
  | cons b rest ih =>
    show (sampleSends _ rest).records.lookup a = _
    rw [ih]
    by_cases ha : a = b
    · subst ha
      simp
    · simp [ha]

/-- The journal of the chat has what the branch of its one event has. -/
theorem sampleSends_mirrors (attempts : List String) :
    (sampleSends sampleTurn attempts).Mirrors "event-1" (attempts.map sampleSent) := by
  constructor
  · intro a record hrecord _
    rw [sampleSends_lookup] at hrecord
    split at hrecord
    · next ha =>
      cases hrecord
      exact ⟨_, List.mem_map_of_mem ha, rfl⟩
    · cases hrecord
  · intro t ht
    obtain ⟨a, ha, rfl⟩ := List.mem_map.mp ht
    refine ⟨a, sampleRecord (sampleSent a), ?_, rfl⟩
    rw [sampleSends_lookup, if_pos ha]

theorem sampleCompleted_one :
    (sampleCompleted (sampleSends sampleTurn ["attempt-1"])).Produced sampleBinding :=
  .complete sampleSends_one rfl (sampleSends_mirrors ["attempt-1"]) (by decide) (by decide)

theorem sampleCompleted_two :
    (sampleCompleted (sampleSends sampleTurn ["attempt-1", "attempt-2"])).Produced sampleBinding :=
  .complete sampleSends_two rfl (sampleSends_mirrors ["attempt-1", "attempt-2"]) (by decide)
    (by decide)

/-- A history fails on a branch with two attempts that report the same send, and
on one with more entries than it reads. -/
theorem confirmed_history_incomplete :
    (∃ s : Branch Nat, s.Produced sampleBinding ∧ s.current = none ∧
      (confirmedMutations s.entries).length = 2 ∧
      confirmedHistory s.entries sampleBinding s.sequence s.checkpoint = .error .checkpointInvalid) ∧
    ∃ s : Branch Nat, s.Produced sampleBinding ∧ s.current = none ∧ confirmedMutations s.entries = [] ∧
      confirmedHistory s.entries sampleBinding s.sequence s.checkpoint =
        .error .checkpointInvalid := by
  refine ⟨⟨_, sampleCompleted_two, rfl, rfl, by rfl⟩, ?_⟩
  have hplain : ∀ e ∈ List.replicate maxEntries (.other "message" : Entry Nat), e.plain = true := by
    intro e he
    rw [List.eq_of_mem_replicate he]
    decide
  refine ⟨_, .bound hplain, rfl, ?_, if_pos (.inr ?_)⟩
  · rw [confirmedMutations_snoc, confirmedMutations_plain hplain]
    rfl
  · simp

/-- The history of the sample event's branch with one attempt. -/
theorem confirmed_history_complete_of_sampleCompleted : ∃ s : Branch Nat,
    s.Produced sampleBinding ∧ s.current = none ∧ (confirmedMutations s.entries).length = 1 ∧
      ∃ r, confirmedHistory s.entries sampleBinding s.sequence s.checkpoint = .ok r ∧
        s.History r := by
  have hdistinct : DistinctSends (sampleCompleted (sampleSends sampleTurn ["attempt-1"])).entries := by
    intro t ht u hu _ _ _
    rw [List.mem_singleton.mp ht, List.mem_singleton.mp hu]
  have hhistory := confirmed_history_complete sampleCompleted_one rfl hdistinct
  rw [if_pos (by decide)] at hhistory
  exact ⟨_, sampleCompleted_one, rfl, rfl, hhistory⟩

end WhatsAppMcp.Controller.Compaction
