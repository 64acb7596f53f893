import WhatsAppMcp.Controller.Compaction.Branch

/-!
# The branch that the controller writes

`Branch.Produced` is the writer of a session: the session is bound, events are
handled one after another, each with its attempts and at last its completion
marker, and the branch may be compacted between two of them.

* `confirmed`: the sends of a marker, from the journal of the chat.
* `Branch.Produced.inv`: the records that the writer keeps are those of the branch.
-/

namespace WhatsAppMcp.Controller.Compaction

open Redis (Hash)

variable {Fp : Type} [DecidableEq Fp]

/-! ## The writer -/

/-- The event whose turn is running. -/
structure OpenEvent (Fp : Type) where
  eventId : String
  eventFingerprint : Fp

/-- A branch with what its writer knows: the last entry of each attempt, the
completed events, the sequence of the last one, the event in its turn and the
payload of the latest restored checkpoint. -/
structure Branch (Fp : Type) where
  entries : List (Entry Fp)
  records : Hash (JournalEnvelope Fp)
  completed : List String
  sequence : Nat
  current : Option (OpenEvent Fp)
  checkpoint : Option CheckpointV1

/-- `confirmed`, which has read the journal of the chat. -/
def confirmed (eventId : String) (journal : List MutationState) :
    Except ErrorClass (List ConfirmedSend) :=
  if ∃ t ∈ journal, t.eventId ≠ eventId ∨ t.status ≠ .confirmed then .error .mutationUncertain
  else .ok (journal.filterMap fun t =>
    t.messageId.map fun messageId => (⟨t.destination, messageId⟩ : ConfirmedSend)).eraseDups

/-- The journal of the chat holds the attempts of the event, as the branch has
them but for the time of the confirmation. -/
structure Branch.Mirrors (s : Branch Fp) (eventId : String) (journal : List MutationState) :
    Prop where
  journalled : ∀ a record, s.records.lookup a = some record → record.state.eventId = eventId →
    ∃ t ∈ journal, { t with finishedAt := record.state.finishedAt } = record.state
  recorded : ∀ t ∈ journal, ∃ a record, s.records.lookup a = some record ∧
    { t with finishedAt := record.state.finishedAt } = record.state

theorem confirmed_ok {eventId : String} {journal : List MutationState} {sends : List ConfirmedSend}
    (h : confirmed eventId journal = .ok sends) (t : MutationState) (ht : t ∈ journal) :
    t.eventId = eventId ∧ t.status = .confirmed := by
  unfold confirmed at h
  split at h
  · cases h
  · next hall =>
    push Not at hall
    exact hall t ht

/-- The branches that the controller writes for a session. -/
inductive Branch.Produced (binding : SessionBinding) : Branch Fp → Prop
  | bound {before : List (Entry Fp)} (hplain : ∀ e ∈ before, e.plain = true) :
      Produced binding ⟨before ++ [.binding binding], ∅, [], 0, none, none⟩
  /-- A message of the agent, or an entry of another extension. -/
  | plain {s : Branch Fp} (past : s.Produced binding) {e : Entry Fp} (hplain : e.plain = true) :
      Produced binding { s with entries := s.entries ++ [e] }
  | turn {s : Branch Fp} (past : s.Produced binding) (hidle : s.current = none)
      {event : OpenEvent Fp} (hnew : event.eventId ∉ s.completed) :
      Produced binding { s with current := some event }
  /-- `tool_call` records a new attempt. -/
  | begin {s : Branch Fp} (past : s.Produced binding) {event : OpenEvent Fp}
      (hcurrent : s.current = some event) {attempt : MutationState}
      (hnew : s.records.lookup attempt.attemptId = none) (hshaped : attempt.shaped = true)
      (hstatus : attempt.status = .attempting) (hevent : attempt.eventId = event.eventId)
      (hchat : attempt.canonicalChatId = binding.canonicalChatId) :
      Produced binding { s with
        entries := s.entries ++ [.mutation ⟨event.eventFingerprint, binding, attempt⟩]
        records := s.records.insert attempt.attemptId ⟨event.eventFingerprint, binding, attempt⟩ }
  /-- `tool_result` records the confirmation of an attempt. -/
  | confirm {s : Branch Fp} (past : s.Produced binding) {a : String} {record : JournalEnvelope Fp}
      (hrecord : s.records.lookup a = some record) (hstatus : record.state.status = .attempting)
      (messageId finishedAt : String) :
      Produced binding { s with
        entries := s.entries ++ [.mutation { record with
          state := record.state.settle (.confirmed messageId finishedAt) }]
        records := s.records.insert a { record with
          state := record.state.settle (.confirmed messageId finishedAt) } }
  /-- `appendCompletion`, with the sends that `confirmed` has given. -/
  | complete {s : Branch Fp} (past : s.Produced binding) {event : OpenEvent Fp}
      (hcurrent : s.current = some event) {journal : List MutationState}
      (hjournal : s.Mirrors event.eventId journal) {sends : List ConfirmedSend}
      (hsends : confirmed event.eventId journal = .ok sends)
      (hsafe : s.sequence + 1 ≤ maxSafeInteger) :
      Produced binding { s with
        entries := s.entries ++ [.completion ⟨event.eventId, event.eventFingerprint,
          binding.canonicalChatId, s.sequence + 1, sends⟩]
        completed := s.completed ++ [event.eventId]
        sequence := s.sequence + 1
        current := none }
  /-- A compaction between two events, with the outcomes that the history gave. -/
  | compact {s : Branch Fp} (past : s.Produced binding) (hidle : s.current = none)
      {checkpoint : CheckpointV1} (entry : CompactionEntry)
      (hchat : checkpoint.canonicalChatId = binding.canonicalChatId)
      (hsequence : checkpoint.lastCompletedSequence = s.sequence)
      (hhistory : confirmedHistory s.entries binding s.sequence s.checkpoint =
        .ok checkpoint.confirmedToolOutcomes) :
      Produced binding { s with
        entries := s.entries ++ [.compaction entry], checkpoint := some checkpoint }
  /-- The latest checkpoint is an aborted one. -/
  | abort {s : Branch Fp} (past : s.Produced binding) :
      Produced binding { s with checkpoint := none }

/-- The confirmed mutation that an entry records. -/
def Entry.confirmed? : Entry Fp → Option MutationState
  | .mutation record => if record.state.status = .confirmed then some record.state else none
  | _ => none

/-- The confirmed mutations on a branch. -/
def confirmedMutations (entries : List (Entry Fp)) : List MutationState :=
  entries.filterMap Entry.confirmed?

/-- No two attempts of one event report the same send. -/
def DistinctSends (entries : List (Entry Fp)) : Prop :=
  ∀ t ∈ confirmedMutations entries, ∀ u ∈ confirmedMutations entries, t.eventId = u.eventId →
    t.destination = u.destination → t.messageId = u.messageId → t.attemptId = u.attemptId

/-! ## What the writer keeps -/

section Writer

variable {binding : SessionBinding} {s : Branch Fp}

/-- The records are those of the branch, each of a completed event or of the
event in its turn. -/
structure Branch.Inv (binding : SessionBinding) (s : Branch Fp) : Prop where
  keyed : ∀ a record, s.records.lookup a = some record → record.state.attemptId = a
  shaped : ∀ a record, s.records.lookup a = some record → record.state.shaped = true
  bound : ∀ a record, s.records.lookup a = some record →
    record.session = binding ∧ record.state.canonicalChatId = binding.canonicalChatId
  recorded : ∀ a record, s.records.lookup a = some record → record.state.status = .confirmed →
    record.state ∈ confirmedMutations s.entries
  held : ∀ t ∈ confirmedMutations s.entries, t.status = .confirmed ∧
    ∃ record, s.records.lookup t.attemptId = some record ∧ record.state = t
  owned : ∀ a record, s.records.lookup a = some record →
    (record.state.eventId ∈ s.completed ∧ record.state.status = .confirmed) ∨
      ∃ event, s.current = some event ∧ record.state.eventId = event.eventId ∧
        record.eventFingerprint = event.eventFingerprint
  fresh : ∀ event, s.current = some event → event.eventId ∉ s.completed
  distinct : ((confirmedMutations s.entries).map MutationState.attemptId).Nodup
  safe : s.sequence ≤ maxSafeInteger

omit [DecidableEq Fp] in
theorem confirmedMutations_snoc (entries : List (Entry Fp)) (e : Entry Fp) :
    confirmedMutations (entries ++ [e]) = confirmedMutations entries ++ e.confirmed?.toList := by
  unfold confirmedMutations
  rw [List.filterMap_append]
  cases he : e.confirmed? <;> simp [he]

omit [DecidableEq Fp] in
theorem confirmed?_of_plain {e : Entry Fp} (h : e.plain = true) : e.confirmed? = none := by
  cases e <;> first | rfl | cases h

omit [DecidableEq Fp] in
theorem confirmedMutations_plain {before : List (Entry Fp)} (h : ∀ e ∈ before, e.plain = true) :
    confirmedMutations before = [] :=
  List.filterMap_eq_nil_iff.mpr fun e he => confirmed?_of_plain (h e he)

/-- A mutation is confirmed with its message id, and an attempt has none. -/
theorem outcomeOf_of_shaped {t : MutationState} (h : t.shaped = true) :
    (outcomeOf t).isSome ↔ t.status = .confirmed := by
  unfold MutationState.shaped at h
  unfold outcomeOf
  cases hstatus : t.status <;> simp_all

theorem settle_shaped {t : MutationState} (h : t.shaped = true) (hstatus : t.status = .attempting)
    (messageId finishedAt : String) :
    (t.settle (.confirmed messageId finishedAt)).shaped = true := by
  unfold MutationState.shaped at h ⊢
  rw [hstatus] at h
  simp only [Bool.and_eq_true] at h
  simpa [MutationState.settle] using h.2

omit [DecidableEq Fp] in
/-- An entry that confirms nothing keeps the records in order. -/
theorem Branch.Inv.append (h : s.Inv binding) {e : Entry Fp} (he : e.confirmed? = none) :
    ({ s with entries := s.entries ++ [e] } : Branch Fp).Inv binding := by
  have hsame : confirmedMutations (s.entries ++ [e]) = confirmedMutations s.entries := by
    rw [confirmedMutations_snoc, he]
    simp
  exact ⟨h.keyed, h.shaped, h.bound, hsame ▸ h.recorded, hsame ▸ h.held, h.owned, h.fresh,
    hsame ▸ h.distinct, h.safe⟩

theorem lookup_insert_cases {V : Type} {h : Hash V} {a b : String} {v w : V}
    (hlookup : (h.insert a v).lookup b = some w) :
    (b = a ∧ w = v) ∨ b ≠ a ∧ h.lookup b = some w := by
  by_cases hb : b = a
  · subst hb
    rw [AList.lookup_insert] at hlookup
    exact .inl ⟨rfl, (Option.some.inj hlookup).symm⟩
  · rw [AList.lookup_insert_ne hb] at hlookup
    exact .inr ⟨hb, hlookup⟩

theorem Branch.Produced.inv (h : s.Produced binding) : s.Inv binding := by
  induction h with
  | @bound before hplain =>
    have hnone : confirmedMutations (before ++ [.binding binding]) = ([] : List MutationState) := by
      rw [confirmedMutations_snoc, confirmedMutations_plain hplain]
      rfl
    have hempty : ∀ a (record : JournalEnvelope Fp), ¬ AList.lookup a (∅ : Hash _) = some record := by
      simp
    refine ⟨fun a r h => absurd h (hempty a r), fun a r h => absurd h (hempty a r),
      fun a r h => absurd h (hempty a r), fun a r h => absurd h (hempty a r), ?_,
      fun a r h => absurd h (hempty a r), fun _ h => (by cases h), ?_, ?_⟩
    · simp [hnone]
    · simp [hnone]
    · show 0 ≤ maxSafeInteger
      simp
  | plain _ hplain ih => exact ih.append (confirmed?_of_plain hplain)
  | @turn s _ hidle event hnew ih =>
    refine ⟨ih.keyed, ih.shaped, ih.bound, ih.recorded, ih.held, fun a record hrecord => ?_, ?_,
      ih.distinct, ih.safe⟩
    · obtain hdone | ⟨event', hcurrent, -⟩ := ih.owned a record hrecord
      · exact .inl hdone
      · rw [hidle] at hcurrent
        cases hcurrent
    · intro event' hevent
      cases hevent
      exact hnew
  | @begin s _ event hcurrent attempt hnew hshaped hstatus hevent hchat ih =>
    have hsame : confirmedMutations (s.entries ++
        [.mutation ⟨event.eventFingerprint, binding, attempt⟩]) = confirmedMutations s.entries := by
      rw [confirmedMutations_snoc]
      simp [Entry.confirmed?, hstatus]
    refine ⟨fun a record h => ?_, fun a record h => ?_, fun a record h => ?_,
      fun a record h hconfirmed => ?_, ?_, fun a record h => ?_, ih.fresh, hsame ▸ ih.distinct,
      ih.safe⟩
    · obtain ⟨rfl, rfl⟩ | ⟨-, hold⟩ := lookup_insert_cases h
      · rfl
      · exact ih.keyed a record hold
    · obtain ⟨rfl, rfl⟩ | ⟨-, hold⟩ := lookup_insert_cases h
      · exact hshaped
      · exact ih.shaped a record hold
    · obtain ⟨rfl, rfl⟩ | ⟨-, hold⟩ := lookup_insert_cases h
      · exact ⟨rfl, hchat⟩
      · exact ih.bound a record hold
    · obtain ⟨rfl, rfl⟩ | ⟨-, hold⟩ := lookup_insert_cases h
      · rw [hstatus] at hconfirmed
        cases hconfirmed
      · show record.state ∈ confirmedMutations (s.entries ++ _)
        rw [hsame]
        exact ih.recorded a record hold hconfirmed
    · show ∀ t ∈ confirmedMutations (s.entries ++ _), _
      rw [hsame]
      intro t ht
      obtain ⟨hconfirmed, record, hrecord, rfl⟩ := ih.held t ht
      refine ⟨hconfirmed, record, ?_, rfl⟩
      have hne : record.state.attemptId ≠ attempt.attemptId := by
        intro heq
        rw [heq, hnew] at hrecord
        cases hrecord
      exact (AList.lookup_insert_ne hne).trans hrecord
    · obtain ⟨rfl, rfl⟩ | ⟨-, hold⟩ := lookup_insert_cases h
      · exact .inr ⟨event, hcurrent, hevent, rfl⟩
      · exact ih.owned a record hold
  | @confirm s _ a record hrecord hstatus messageId finishedAt ih =>
    obtain rfl := ih.keyed a record hrecord
    have hlist : confirmedMutations (s.entries ++ [.mutation { record with
        state := record.state.settle (.confirmed messageId finishedAt) }]) =
          confirmedMutations s.entries ++ [record.state.settle (.confirmed messageId finishedAt)] := by
      rw [confirmedMutations_snoc]
      rfl
    -- A confirmed mutation is one of another attempt.
    have hother : ∀ t ∈ confirmedMutations s.entries, t.attemptId ≠ record.state.attemptId := by
      intro t ht heq
      obtain ⟨hconfirmed, old, hold, rfl⟩ := ih.held t ht
      rw [heq, hrecord] at hold
      cases hold
      rw [hstatus] at hconfirmed
      cases hconfirmed
    refine ⟨fun a other h => ?_, fun a other h => ?_, fun a other h => ?_,
      fun a other h hconfirmed => ?_, ?_, fun a other h => ?_, ih.fresh, ?_, ih.safe⟩
    · obtain ⟨rfl, rfl⟩ | ⟨-, hold⟩ := lookup_insert_cases h
      · rfl
      · exact ih.keyed a other hold
    · obtain ⟨rfl, rfl⟩ | ⟨-, hold⟩ := lookup_insert_cases h
      · exact settle_shaped (ih.shaped _ _ hrecord) hstatus messageId finishedAt
      · exact ih.shaped a other hold
    · obtain ⟨rfl, rfl⟩ | ⟨-, hold⟩ := lookup_insert_cases h
      · obtain ⟨hsession, hchat⟩ := ih.bound _ _ hrecord
        exact ⟨hsession, hchat⟩
      · exact ih.bound a other hold
    · show other.state ∈ confirmedMutations (s.entries ++ _)
      rw [hlist]
      obtain ⟨rfl, rfl⟩ | ⟨-, hold⟩ := lookup_insert_cases h
      · simp
      · exact List.mem_append_left _ (ih.recorded a other hold hconfirmed)
    · show ∀ t ∈ confirmedMutations (s.entries ++ _), _
      rw [hlist]
      intro t ht
      rcases List.mem_append.mp ht with ht | ht
      · obtain ⟨hconfirmed, old, hold, rfl⟩ := ih.held t ht
        exact ⟨hconfirmed, old, (AList.lookup_insert_ne (hother _ ht)).trans hold, rfl⟩
      · rw [List.mem_singleton.mp ht]
        exact ⟨rfl, _, AList.lookup_insert _, rfl⟩
    · obtain ⟨rfl, rfl⟩ | ⟨-, hold⟩ := lookup_insert_cases h
      · obtain ⟨-, hconfirmed⟩ | hopen := ih.owned _ _ hrecord
        · rw [hstatus] at hconfirmed
          cases hconfirmed
        · exact .inr hopen
      · exact ih.owned a other hold
    · show ((confirmedMutations (s.entries ++ _)).map _).Nodup
      rw [hlist, List.map_append, List.nodup_append]
      refine ⟨ih.distinct, List.nodup_singleton _, ?_⟩
      intro b hb c hc
      obtain ⟨t, ht, rfl⟩ := List.mem_map.mp hb
      rw [List.mem_singleton.mp hc]
      exact hother t ht
  | @complete s _ event hcurrent journal hjournal sends hsends hsafe ih =>
    have happend := ih.append (e := .completion ⟨event.eventId, event.eventFingerprint,
      binding.canonicalChatId, s.sequence + 1, sends⟩) rfl
    refine ⟨ih.keyed, ih.shaped, ih.bound, happend.recorded, happend.held, fun a record h => ?_,
      nofun, happend.distinct, hsafe⟩
    obtain ⟨hdone, hconfirmed⟩ | ⟨event', hcurrent', hevent, -⟩ := ih.owned a record h
    · exact .inl ⟨List.mem_append_left _ hdone, hconfirmed⟩
    · rw [hcurrent] at hcurrent'
      cases hcurrent'
      obtain ⟨t, ht, heq⟩ := hjournal.journalled a record h hevent
      refine .inl ⟨List.mem_append_right _ (by simp [hevent]), ?_⟩
      rw [← heq]
      exact (confirmed_ok hsends t ht).2
  | compact _ _ entry _ _ _ ih =>
    have happend := ih.append (e := .compaction entry) rfl
    exact ⟨happend.keyed, happend.shaped, happend.bound, happend.recorded, happend.held,
      happend.owned, happend.fresh, happend.distinct, happend.safe⟩
  | abort _ ih =>
    exact ⟨ih.keyed, ih.shaped, ih.bound, ih.recorded, ih.held, ih.owned, ih.fresh, ih.distinct,
      ih.safe⟩

end Writer

end WhatsAppMcp.Controller.Compaction
