import WhatsAppMcp.Controller.Redis.Fencing

/-!
# The mutation journal

A record of the native journal starts as an attempt under the leases of its
caller.  It becomes confirmed or uncertain, and only the completion of its own
event removes it.

An attempt that nobody settled in time, and one that is uncertain, freeze the
chat: no fence is granted any more, so nobody can settle or complete.

* `sweep_lookup`: what the loop over the journal in `claim` leaves.
* `Journalled`: the key of a record, and that the last grant of the chat is the
  one an open attempt was opened under.
* `native_step`: what one step can make of a record.
* `frozen_step`: a frozen chat stays frozen.
-/

namespace WhatsAppMcp.Controller.Redis

open Trace (Exec)

variable {Fp : Type}

/-! ## The sweep -/

/-- A record after the loop of `claim` has passed it. -/
def JournalRecord.swept (record : JournalRecord Fp) : JournalRecord Fp :=
  if record.state.status = .confirmed then record
  else
    match record with
    | .native envelope => .native { envelope with state := envelope.state.toUncertain }
    | .legacy state => .legacy state

/-- A native record stands under its attempt id. -/
def Keyed (tools : Hash (JournalRecord Fp)) : Prop :=
  ∀ a envelope, tools.lookup a = some (.native envelope) → envelope.state.attemptId = a

theorem mem_vals {V : Type} {h : Hash V} {v : V} : v ∈ h.vals ↔ ∃ a, h.lookup a = some v := by
  simp only [Hash.vals, List.mem_map]
  constructor
  · rintro ⟨⟨a, v⟩, hmem, rfl⟩
    exact ⟨a, AList.mem_lookup_iff.mpr hmem⟩
  · rintro ⟨a, ha⟩
    exact ⟨⟨a, v⟩, AList.mem_lookup_iff.mp ha, rfl⟩

/-- The loop leaves a key that no unconfirmed native record is written to. -/
theorem foldl_sweepStep_miss {a : String} {l : List (JournalRecord Fp)}
    {acc : Hash (JournalRecord Fp) × Bool}
    (h : ∀ envelope, .native envelope ∈ l → envelope.state.attemptId = a →
      envelope.state.status = .confirmed) :
    (l.foldl sweepStep acc).1.lookup a = acc.1.lookup a := by
  induction l generalizing acc with
  | nil => rfl
  | cons record l ih =>
    rw [List.foldl_cons, ih fun envelope hmem => h envelope (List.mem_cons_of_mem _ hmem)]
    unfold sweepStep
    split
    · rfl
    · next hopen =>
      cases record with
      | native envelope =>
        refine AList.lookup_insert_ne ?_
        rintro rfl
        exact hopen (h envelope List.mem_cons_self rfl)
      | legacy state => rfl

/-- The loop writes an unconfirmed native record as uncertain. -/
theorem foldl_sweepStep_hit {a : String} {l : List (JournalRecord Fp)}
    {acc : Hash (JournalRecord Fp) × Bool} {envelope : JournalEnvelope Fp}
    (hmem : .native envelope ∈ l) (hid : envelope.state.attemptId = a)
    (hopen : envelope.state.status ≠ .confirmed)
    (honly : ∀ other, .native other ∈ l → other.state.attemptId = a → other = envelope) :
    (l.foldl sweepStep acc).1.lookup a =
      some (.native { envelope with state := envelope.state.toUncertain }) := by
  induction l generalizing acc with
  | nil => cases hmem
  | cons record l ih =>
    have honly' : ∀ other, .native other ∈ l → other.state.attemptId = a → other = envelope :=
      fun other h => honly other (List.mem_cons_of_mem _ h)
    by_cases hrest : .native envelope ∈ l
    · exact ih hrest honly'
    · obtain rfl : record = .native envelope := by
        rcases List.mem_cons.mp hmem with rfl | h
        · rfl
        · exact absurd h hrest
      rw [List.foldl_cons, foldl_sweepStep_miss]
      · simp [sweepStep, hopen, hid]
      · intro other h hother
        exact absurd (honly' other h hother ▸ h) hrest

/-- The loop of `claim` sweeps every record in its place. -/
theorem sweep_lookup {tools : Hash (JournalRecord Fp)} (hkeyed : Keyed tools) (a : String) :
    (sweep tools).1.lookup a = (tools.lookup a).map JournalRecord.swept := by
  have hat : ∀ envelope, .native envelope ∈ tools.vals → envelope.state.attemptId = a →
      tools.lookup a = some (.native envelope) := by
    intro envelope hmem hid
    obtain ⟨b, hb⟩ := mem_vals.mp hmem
    rwa [← hid, hkeyed b envelope hb]
  by_cases hhit : ∃ envelope, tools.lookup a = some (.native envelope) ∧
      envelope.state.status ≠ .confirmed
  · obtain ⟨envelope, hlookup, hopen⟩ := hhit
    rw [sweep, foldl_sweepStep_hit (mem_vals.mpr ⟨a, hlookup⟩) (hkeyed a envelope hlookup) hopen,
      hlookup]
    · simp [JournalRecord.swept, hopen]
    · intro other hmem hid
      have hother := (hat other hmem hid).symm.trans hlookup
      exact JournalRecord.native.inj (Option.some.inj hother)
  · push Not at hhit
    rw [sweep, foldl_sweepStep_miss fun envelope hmem hid => hhit envelope (hat envelope hmem hid)]
    cases hlookup : tools.lookup a with
    | none => rfl
    | some record =>
      cases record with
      | native envelope => simp [JournalRecord.swept, hhit envelope hlookup]
      | legacy state =>
        refine congrArg some ?_
        unfold JournalRecord.swept
        split <;> rfl

/-! ## Who opened an attempt -/

/-- The tuple that an attempt was opened with, up to the stream id. -/
def openedArgs (envelope : JournalEnvelope Fp) (streamId : StreamId) : WorkArgs Fp where
  appOwner := envelope.state.ownership.app.owner
  appEpoch := envelope.state.ownership.app.epoch
  chatOwner := envelope.state.ownership.chat.owner
  chatEpoch := envelope.state.ownership.chat.epoch
  eventId := envelope.state.eventId
  streamId := streamId
  fingerprint := envelope.eventFingerprint

/-- The last grant of the chat was to this tuple, whether it still holds it or not. -/
structure LeaseHash.GrantedTo (l : LeaseHash) (w : WorkArgs Fp) : Prop where
  epoch : l.epoch = some w.chatEpoch
  owner : ∀ owner, l.owner = some owner → owner = w.chatOwner
  app : l.SameApp w.appOwner w.appEpoch
  event : ∀ event, l.event = some event → event = w.eventId

/-- Native records stand under their attempt ids, and an open attempt belongs
to the last grant. -/
structure Journalled (c : Core Fp) : Prop where
  keyed : Keyed c.tools
  opened : ∀ a envelope, c.tools.lookup a = some (.native envelope) →
    envelope.state.status = .attempting →
      ∃ streamId, c.lease.GrantedTo (openedArgs envelope streamId) ∧ Known c (openedArgs envelope streamId)

theorem empty_journalled (time : Nat) (chat : String) :
    Journalled ((Store.empty time : Store Fp).core chat) :=
  ⟨fun _ _ h => (nomatch h), fun _ _ h => (nomatch h)⟩

section Steps

variable [DecidableEq Fp] {chats : List String} {fingerprint : NotificationV2 → Fp}
  {clk : Clock} {k : Keys Fp} {op : Op Fp} {r : Reply Fp} {d : Core Fp}
  {s t : Store Fp} {l : Label Fp} {chat a : String}

/-- A tuple that passes is the one of the last grant. -/
theorem granted_of_work {w : WorkArgs Fp} {e : EventRecord Fp} (h : k.work clk w = some e) :
    k.lease.GrantedTo w := by
  obtain ⟨⟨-, hchat, hsame⟩, -, -, -, hevent⟩ := work_eq_some h
  exact ⟨hchat.2.1, fun _ ho => Option.some.inj (ho.symm.trans hchat.1), hsame,
    fun _ hv => Option.some.inj (hv.symm.trans hevent)⟩

theorem known_of_work {w : WorkArgs Fp} {e : EventRecord Fp} {x : Lease String} {m : Lease Holder}
    (hx : k.app.Shows x) (hm : k.lease.Shows m) (h : k.work clk w = some e) : Known k.core w := by
  obtain ⟨⟨happ, hchat, -⟩, he, hid, hfp, -⟩ := work_eq_some h
  exact ⟨⟨x, x.epoch, hx, hx.epoch.eq_of_some happ.2.1, le_refl _⟩,
    ⟨m, m.epoch, hm, hm.epoch.eq_of_some hchat.2.1, le_refl _⟩, fun _ _ => ⟨e, he, hid, hfp⟩⟩

/-- If anybody passes, the tuple of the last grant holds its leases. -/
theorem holds_of_granted {w v : WorkArgs Fp} {e : EventRecord Fp} {time : Nat}
    (hw : k.lease.GrantedTo w) (hv : k.work clk v = some e) (htime : time ≤ clk.now 0) :
    k.core.Holds w time := by
  obtain ⟨happ, hchat, hsame, hevent⟩ := holds_of_work hv htime
  have howner := hw.owner _ hchat.1
  have hepoch := Option.some.inj (hchat.2.1.symm.trans hw.epoch)
  have happEpoch := Option.some.inj (hsame.1.symm.trans hw.app.1)
  have happOwner := Option.some.inj (hsame.2.symm.trans hw.app.2)
  rw [happEpoch, happOwner] at happ hsame
  rw [howner, hepoch] at hchat
  rw [hw.event _ hevent] at hevent
  exact ⟨happ, hchat, hsame, hevent⟩

/-- An open attempt after a call was open before, under a grant that is still
the last, or the call has opened it. -/
theorem opened_effect (heffect : Effect fingerprint clk k op r d) (hkeyed : Keyed k.tools)
    (hissued : ∀ w attemptId record session, op = .nativeJournalBegin w attemptId record session →
      w.OwnedBy record.state.ownership)
    {envelope : JournalEnvelope Fp} (hlookup : d.tools.lookup a = some (.native envelope))
    (hopen : envelope.state.status = .attempting) :
    (k.tools.lookup a = some (.native envelope) ∧
        ∀ w : WorkArgs Fp, k.lease.GrantedTo w → d.lease.GrantedTo w) ∨
      ∃ w e, k.work clk w = some e ∧ openedArgs envelope w.streamId = w ∧ d.lease.GrantedTo w := by
  cases heffect with
  | granted _ _ _ _ _ _ _ _ _ _ _ htools =>
    have hconfirmed := htools _ (mem_vals.mpr ⟨a, hlookup⟩)
    rw [JournalRecord.state_native, hopen] at hconfirmed
    cases hconfirmed
  | renewed => exact Or.inl ⟨hlookup, fun w hw => ⟨hw.epoch, hw.owner, hw.app, hw.event⟩⟩
  | released =>
    exact Or.inl ⟨hlookup, fun w hw => ⟨hw.epoch, fun _ h => (nomatch h), hw.app,
      fun _ h => (nomatch h)⟩⟩
  | completed => cases hlookup
  | swept =>
    rw [sweep_lookup hkeyed] at hlookup
    obtain ⟨record, hrecord, hswept⟩ := Option.map_eq_some_iff.mp hlookup
    unfold JournalRecord.swept at hswept
    split at hswept
    · next hconfirmed =>
      rw [hswept, JournalRecord.state_native, hopen] at hconfirmed
      cases hconfirmed
    · split at hswept
      · cases hswept
        cases hopen
      · cases hswept
  | @journalled w attemptId =>
    by_cases heq : a = attemptId
    · subst heq
      rw [AList.lookup_insert] at hlookup
      cases hlookup
    · rw [AList.lookup_insert_ne heq] at hlookup
      exact Or.inl ⟨hlookup, fun w hw => hw⟩
  | @opened w attemptId record session e hwork hnew hid hevent hfp =>
    by_cases heq : a = attemptId
    · subst heq
      rw [AList.lookup_insert] at hlookup
      obtain rfl := JournalRecord.native.inj (Option.some.inj hlookup)
      obtain ⟨happOwner, happEpoch, hchatOwner, hchatEpoch⟩ := hissued _ _ _ _ rfl
      refine Or.inr ⟨w, e, hwork, ?_, ?_⟩
      · simp only [openedArgs, happOwner, happEpoch, hchatOwner, hchatEpoch, hevent, hfp]
      · have hgranted := granted_of_work hwork
        exact ⟨hgranted.epoch, hgranted.owner, hgranted.app, hgranted.event⟩
    · rw [AList.lookup_insert_ne heq] at hlookup
      exact Or.inl ⟨hlookup, fun w hw => hw⟩
  | @settled w attemptId settlement record =>
    by_cases heq : a = attemptId
    · subst heq
      rw [AList.lookup_insert] at hlookup
      have hstate := congrArg JournalRecord.state (Option.some.inj hlookup)
      rw [JournalRecord.withState_state, JournalRecord.state_native] at hstate
      rw [← hstate] at hopen
      cases settlement <;> cases hopen
    · rw [AList.lookup_insert_ne heq] at hlookup
      exact Or.inl ⟨hlookup, fun w hw => hw⟩
  | _ => exact Or.inl ⟨hlookup, fun w hw => ⟨hw.epoch, hw.owner, hw.app, hw.event⟩⟩

theorem keyed_effect (heffect : Effect fingerprint clk k op r d) (hkeyed : Keyed k.tools) :
    Keyed d.tools := by
  intro a envelope hlookup
  cases heffect with
  | completed => cases hlookup
  | swept =>
    rw [sweep_lookup hkeyed] at hlookup
    obtain ⟨record, hrecord, hswept⟩ := Option.map_eq_some_iff.mp hlookup
    unfold JournalRecord.swept at hswept
    split at hswept
    · exact hkeyed a envelope (hswept ▸ hrecord)
    · split at hswept
      · cases hswept
        have hid := hkeyed a _ hrecord
        exact hid
      · cases hswept
  | @journalled w attemptId =>
    by_cases heq : a = attemptId
    · subst heq
      rw [AList.lookup_insert] at hlookup
      cases hlookup
    · rw [AList.lookup_insert_ne heq] at hlookup
      exact hkeyed a envelope hlookup
  | @opened w attemptId record session e hwork hnew hid =>
    by_cases heq : a = attemptId
    · subst heq
      rw [AList.lookup_insert] at hlookup
      obtain rfl := JournalRecord.native.inj (Option.some.inj hlookup)
      exact hid
    · rw [AList.lookup_insert_ne heq] at hlookup
      exact hkeyed a envelope hlookup
  | @settled w attemptId settlement record e hwork hrecord =>
    by_cases heq : a = attemptId
    · subst heq
      rw [AList.lookup_insert] at hlookup
      cases record with
      | native old =>
        obtain rfl := JournalRecord.native.inj (Option.some.inj hlookup)
        have hid := hkeyed a old hrecord
        cases settlement <;> exact hid
      | legacy => cases hlookup
    · rw [AList.lookup_insert_ne heq] at hlookup
      exact hkeyed a envelope hlookup
  | _ => exact hkeyed a envelope hlookup

theorem step_journalled (hleased : s.Leased) (h : ∀ chat, Journalled (s.core chat))
    (hstep : Store.Step chats fingerprint s l t) (chat : String) : Journalled (t.core chat) := by
  obtain ⟨-, ⟨-, hcore⟩ | ⟨c, r, -, hissued, -, -, heffect, hother⟩⟩ := hstep.cases_on_core
  · exact hcore chat ▸ h chat
  by_cases hne : chat = c.chat
  · subst hne
    refine ⟨keyed_effect heffect (h c.chat).keyed, fun a envelope hlookup hopen => ?_⟩
    have hissue : ∀ w attemptId record session,
        c.op = .nativeJournalBegin w attemptId record session →
          w.OwnedBy record.state.ownership := by
      intro w attemptId record session hop
      have hmatch := hissued.2
      rw [hop] at hmatch
      exact hmatch
    rcases opened_effect heffect (h c.chat).keyed hissue hlookup hopen with
      ⟨hold, hkeep⟩ | ⟨w, e, hwork, hargs, hgranted⟩
    · obtain ⟨streamId, hgranted, hknown⟩ := (h c.chat).opened a envelope hold hopen
      exact ⟨streamId, hkeep _ hgranted, step_known hstep hknown⟩
    · obtain ⟨x, hx⟩ := hleased.app
      obtain ⟨m, hm⟩ := hleased.chat c.chat
      have hknown := known_of_work hx hm hwork
      rw [← hargs] at hgranted hknown
      exact ⟨w.streamId, hgranted, step_known hstep hknown⟩
  · have hsame := hother chat hne
    refine ⟨?_, fun a envelope hlookup hopen => ?_⟩
    · rw [hsame]
      exact (h chat).keyed
    · rw [hsame] at hlookup
      obtain ⟨streamId, hgranted, hknown⟩ := (h chat).opened a envelope hlookup hopen
      refine ⟨streamId, ?_, step_known hstep hknown⟩
      rw [hsame]
      exact hgranted

/-! ## What a step makes of a record -/

/-- The record is the same attempt, and its status has stayed or has moved from
attempting to one of the two final ones. -/
structure Advances (old new : JournalEnvelope Fp) : Prop where
  eventFingerprint : new.eventFingerprint = old.eventFingerprint
  session : new.session = old.session
  attempt : { new.state with
    status := old.state.status, messageId := old.state.messageId,
    finishedAt := old.state.finishedAt, reason := old.state.reason } = old.state
  status : new.state.status = old.state.status ∨
    old.state.status = .attempting ∧ new.state.status ≠ .attempting

omit [DecidableEq Fp] in
theorem Advances.refl (envelope : JournalEnvelope Fp) : Advances envelope envelope :=
  ⟨rfl, rfl, rfl, Or.inl rfl⟩

omit [DecidableEq Fp] in
/-- The same attempt was opened with the same tuple. -/
theorem Advances.args_eq {old new : JournalEnvelope Fp} (h : Advances old new)
    (streamId : StreamId) : openedArgs new streamId = openedArgs old streamId := by
  have hownership := congrArg MutationState.ownership h.attempt
  have hevent := congrArg MutationState.eventId h.attempt
  simp only at hownership hevent
  simp only [openedArgs, h.eventFingerprint, hownership, hevent]

/-- The call confirms this attempt for a caller that passes. -/
def Confirmed (clk : Clock) (k : Keys Fp) (op : Op Fp) (r : Reply Fp) (a : String)
    (old new : JournalEnvelope Fp) : Prop :=
  ∃ w messageId finishedAt e, op = .journalTransition w a (.confirmed messageId finishedAt) ∧
    r = .ok ∧ k.work clk w = some e ∧
    new = { old with state := old.state.settle (.confirmed messageId finishedAt) }

/-- What a call makes of a native record that stays: the same attempt, which is
confirmed by nothing but a transition that says so, and which then stays as it is. -/
structure Moved (clk : Clock) (k : Keys Fp) (op : Op Fp) (r : Reply Fp) (a : String)
    (old new : JournalEnvelope Fp) : Prop where
  advances : Advances old new
  kept : old.state.status = .confirmed → new = old
  confirmed : old.state.status = .attempting → new.state.status = .confirmed →
    Confirmed clk k op r a old new

theorem Moved.refl (op : Op Fp) (r : Reply Fp) (envelope : JournalEnvelope Fp) :
    Moved clk k op r a envelope envelope where
  advances := .refl envelope
  kept _ := rfl
  confirmed hopen hconfirmed := by
    rw [hopen] at hconfirmed
    cases hconfirmed

/-- A call keeps a native record as the same attempt, or it completes the event
of all records. -/
theorem native_effect (heffect : Effect fingerprint clk k op r d) (hkeyed : Keyed k.tools)
    {envelope : JournalEnvelope Fp} (hlookup : k.tools.lookup a = some (.native envelope)) :
    (∃ new, d.tools.lookup a = some (.native new) ∧ Moved clk k op r a envelope new) ∨
      ∃ w session sends, op = .complete w session sends ∧ r = .ok ∧
        w.eventId = envelope.state.eventId ∧ (∀ record ∈ k.tools.vals, Settled record w sends) ∧
        d.tools = ∅ := by
  cases heffect with
  | @completed w session sends e hwork hseq hsession htools =>
    refine Or.inr ⟨w, session, sends, rfl, rfl, ?_, htools, rfl⟩
    exact (htools _ (mem_vals.mpr ⟨a, hlookup⟩)).2.1.symm
  | swept =>
    refine Or.inl ?_
    by_cases hconfirmed : envelope.state.status = .confirmed
    · refine ⟨envelope, ?_, .refl _ _ envelope⟩
      change (sweep k.tools).1.lookup a = _
      rw [sweep_lookup hkeyed, hlookup]
      simp [JournalRecord.swept, hconfirmed]
    · refine ⟨{ envelope with state := envelope.state.toUncertain }, ?_, ⟨rfl, rfl, rfl, ?_⟩,
        fun h => absurd h hconfirmed, fun _ h => nomatch h⟩
      · change (sweep k.tools).1.lookup a = _
        rw [sweep_lookup hkeyed, hlookup]
        simp [JournalRecord.swept, hconfirmed]
      · cases hstatus : envelope.state.status with
        | attempting => exact Or.inr ⟨rfl, nofun⟩
        | confirmed => exact absurd hstatus hconfirmed
        | uncertain => exact Or.inl rfl
  | @journalled w attemptId state e hwork hnew | @opened w attemptId record session e hwork hnew =>
    have hne : a ≠ attemptId := by
      rintro rfl
      rw [hnew] at hlookup
      cases hlookup
    refine Or.inl ⟨envelope, ?_, .refl _ _ envelope⟩
    rw [AList.lookup_insert_ne hne]
    exact hlookup
  | @settled w attemptId settlement record e hwork hrecord hevent hstatus =>
    refine Or.inl ?_
    by_cases heq : a = attemptId
    · subst heq
      obtain rfl := Option.some.inj (hrecord.symm.trans hlookup)
      refine ⟨{ envelope with state := envelope.state.settle settlement }, AList.lookup_insert _,
        ?_, fun hconfirmed => ?_, fun _ hconfirmed => ?_⟩
      · cases settlement <;> exact ⟨rfl, rfl, rfl, Or.inr ⟨hstatus, nofun⟩⟩
      · rw [JournalRecord.state_native, hconfirmed] at hstatus
        cases hstatus
      · cases settlement with
        | confirmed messageId finishedAt => exact ⟨w, messageId, finishedAt, e, rfl, rfl, hwork, rfl⟩
        | uncertain => cases hconfirmed
    · refine ⟨envelope, ?_, .refl _ _ envelope⟩
      rw [AList.lookup_insert_ne heq]
      exact hlookup
  | _ => exact Or.inl ⟨envelope, hlookup, .refl _ _ envelope⟩

/-- The cursor moves only when every record is settled. -/
theorem cursor_effect (heffect : Effect fingerprint clk k op r d) :
    d.cursor = k.cursor ∨ ∃ w sends, ∀ record ∈ k.tools.vals, Settled record w sends := by
  cases heffect with
  | completed _ _ _ htools => exact Or.inr ⟨_, _, htools⟩
  | _ => exact Or.inl rfl

/-! ## Frozen chats -/

/-- The record under `a` is uncertain, or it is still attempting and the leases
it was opened under have ended. -/
def Store.Frozen (s : Store Fp) (chat a : String) : Prop :=
  ∃ envelope, (s.chats chat).tools.lookup a = some (.native envelope) ∧
    (envelope.state.status = .uncertain ∨ envelope.state.status = .attempting ∧
      ¬ (s.core chat).Holds (openedArgs envelope .zero) s.time)

/-- A frozen chat stays frozen, its cursor stands, and no lease of it is granted. -/
theorem frozen_step (hleased : s.Leased) (hjournal : ∀ chat, Journalled (s.core chat))
    (hfrozen : s.Frozen chat a) (hstep : Store.Step chats fingerprint s l t) :
    t.Frozen chat a ∧ (t.core chat).cursor = (s.core chat).cursor ∧
      ∀ c r w, l = some (c, r) → c.chat = chat → observe fingerprint c.op r ≠ some (.granted w) := by
  obtain ⟨envelope, hlookup, hstatus⟩ := hfrozen
  have hopen : envelope.state.status ≠ .confirmed := by
    rcases hstatus with h | ⟨h, -⟩ <;> rw [h] <;> nofun
  -- the record stays attempting only under leases that have ended
  have hended : envelope.state.status = .attempting →
      ¬ (s.core chat).Holds (openedArgs envelope .zero) s.time ∧
        ¬ (t.core chat).Holds (openedArgs envelope .zero) t.time := by
    intro hattempting
    rcases hstatus with h | ⟨-, hlapsed⟩
    · rw [hattempting] at h
      cases h
    · obtain ⟨streamId, -, hknown⟩ := (hjournal chat).opened a envelope hlookup hattempting
      exact ⟨hlapsed, step_lapsed (w := openedArgs envelope streamId) hstep hleased hknown hlapsed⟩
  have hsame : (t.chats chat).tools.lookup a = some (.native envelope) → t.Frozen chat a := by
    refine fun hkept => ⟨envelope, hkept, hstatus.imp_right fun h => ⟨h.1, (hended h.1).2⟩⟩
  obtain ⟨-, ⟨rfl, hcore⟩ | ⟨c, r, rfl, -, hstart, -, heffect, hother⟩⟩ := hstep.cases_on_core
  · have htools : (t.chats chat).tools = (s.chats chat).tools := congrArg Core.tools (hcore chat)
    refine ⟨hsame (htools ▸ hlookup), by rw [hcore], ?_⟩
    intro c r w heq
    cases heq
  by_cases hne : chat = c.chat
  · subst hne
    have hmem := mem_vals.mpr ⟨a, hlookup⟩
    refine ⟨?_, ?_, ?_⟩
    · rcases native_effect heffect (hjournal c.chat).keyed hlookup with
        ⟨new, hnew, hadvances, -, hconfirm⟩ | ⟨w, session, sends, -, -, -, htools, -⟩
      · refine ⟨new, hnew, ?_⟩
        rw [hadvances.args_eq]
        rcases hadvances.status with hkept | ⟨hattempting, hmoved⟩
        · rw [hkept]
          exact hstatus.imp_right fun h => ⟨h.1, (hended h.1).2⟩
        · cases hstatus' : new.state.status with
          | attempting => exact absurd hstatus' hmoved
          | uncertain => exact Or.inl rfl
          | confirmed =>
            -- whoever confirms holds the leases of the last grant, which has ended
            obtain ⟨w, -, -, e, -, -, hwork, -⟩ := hconfirm hattempting hstatus'
            obtain ⟨streamId, hgranted, -⟩ :=
              (hjournal c.chat).opened a envelope hlookup hattempting
            exact absurd (holds_of_granted hgranted hwork hstart) (hended hattempting).1
      · exact absurd (htools _ hmem).1 hopen
    · rcases cursor_effect heffect with hcursor | ⟨w, sends, htools⟩
      · exact hcursor
      · exact absurd (htools _ hmem).1 hopen
    · rintro c' r' w heq - hobs
      cases heq
      obtain ⟨-, -, -, -, -, -, -, -, -, -, -, -, htools, -⟩ := heffect.of_granted hobs
      exact hopen (htools _ hmem)
  · have htools : (t.chats chat).tools = (s.chats chat).tools :=
      congrArg Core.tools (hother chat hne)
    refine ⟨hsame (htools ▸ hlookup), by rw [hother chat hne], ?_⟩
    rintro c' r' w heq hchat
    cases heq
    exact absurd hchat.symm hne

theorem run_journalled {time : Nat} {es : List (Label Fp)}
    (h : Exec (Store.Step chats fingerprint) (Store.empty time) es s) :
    s.Leased ∧ ∀ chat, Journalled (s.core chat) :=
  h.invariant (P := fun s => s.Leased ∧ ∀ chat, Journalled (s.core chat))
    ⟨empty_leased time, empty_journalled time⟩
    fun _ _ _ hs hstep => ⟨step_leased hs.1 hstep, step_journalled hs.1 hs.2 hstep⟩

/-- In every state of every run: a native record only advances, until the
completion of its event, with every record of the chat settled, removes it; and
once the chat is frozen it stays so, its cursor stands and no claim is granted,
whatever is called. -/
theorem uncertain_mutation_freezes {time : Nat} {es : List (Label Fp)}
    (h : Exec (Store.Step chats fingerprint) (Store.empty time) es s) :
    (∀ chat a envelope l t, (s.chats chat).tools.lookup a = some (.native envelope) →
      Store.Step chats fingerprint s l t →
      (∃ new, (t.chats chat).tools.lookup a = some (.native new) ∧ Advances envelope new) ∨
        ∃ w session sends clk, l = some (⟨chat, .complete w session sends, clk⟩, .ok) ∧
          w.eventId = envelope.state.eventId ∧
          ∀ record ∈ (s.chats chat).tools.vals, Settled record w sends) ∧
    ∀ chat a, s.Frozen chat a → ∀ fs t, Exec (Store.Step chats fingerprint) s fs t →
      t.Frozen chat a ∧ (t.core chat).cursor = (s.core chat).cursor ∧
        ∀ c r args, some (c, r) ∈ fs → c.chat = chat → c.op = .claim args →
          ∀ streamId raw epoch untilMs, r ≠ .claimed streamId raw epoch untilMs := by
  obtain ⟨hleased, hjournal⟩ := run_journalled h
  constructor
  · intro chat a envelope l t hlookup hstep
    obtain ⟨-, ⟨-, hcore⟩ | ⟨c, r, rfl, -, -, -, heffect, hother⟩⟩ := hstep.cases_on_core
    · have htools : (t.chats chat).tools = (s.chats chat).tools := congrArg Core.tools (hcore chat)
      exact Or.inl ⟨envelope, htools ▸ hlookup, .refl envelope⟩
    by_cases hne : chat = c.chat
    · subst hne
      rcases native_effect heffect (hjournal c.chat).keyed hlookup with
        ⟨new, hnew, hadvances, -⟩ | ⟨w, session, sends, hop, rfl, hevent, htools, -⟩
      · exact Or.inl ⟨new, hnew, hadvances⟩
      · exact Or.inr ⟨w, session, sends, c.clk, by rw [← hop], hevent, htools⟩
    · have htools : (t.chats chat).tools = (s.chats chat).tools :=
        congrArg Core.tools (hother chat hne)
      exact Or.inl ⟨envelope, htools ▸ hlookup, .refl envelope⟩
  · intro chat a hfrozen fs t hrun
    induction hrun with
    | nil => exact ⟨hfrozen, rfl, fun _ _ _ hmem => absurd hmem List.not_mem_nil⟩
    | snoc run last ih =>
      obtain ⟨hfrozen', hcursor, hnone⟩ := ih
      obtain ⟨hleased', hjournal'⟩ := run_journalled (h.append run)
      obtain ⟨hnext, hcursor', hgrant⟩ := frozen_step hleased' hjournal' hfrozen' last
      refine ⟨hnext, hcursor'.trans hcursor, ?_⟩
      intro c r args hmem hchat hop streamId raw epoch untilMs hr
      rcases List.mem_append.mp hmem with hmem | hmem
      · exact hnone c r args hmem hchat hop streamId raw epoch untilMs hr
      · refine hgrant c r (grantedArgs fingerprint args.appOwner args.appEpoch args.chatOwner
          epoch streamId raw) (List.mem_singleton.mp hmem).symm hchat ?_
        rw [hop, hr]
        rfl

end Steps

/-! ### A lost attempt -/

def sampleAttempt : JournalEnvelope NotificationV2 where
  eventFingerprint := sampleEvent
  session := sampleSession
  state :=
    { attemptId := "attempt-1", eventId := "event-1", canonicalChatId := "1@g.us"
      toolCallId := "call-1", tool := "send_message", destination := "2@s.whatsapp.net"
      startedAt := "2026-01-01T00:00:02Z"
      ownership := ⟨⟨"app", "1", 102⟩, ⟨"worker", "1", 54⟩⟩
      status := .attempting, messageId := none, finishedAt := none, reason := none }

/-- A worker begins a tool call and then both of its leases run out. -/
def lostAttemptCalls : List (String × Nat × Op NotificationV2) :=
  sampleCalls ++
    [("1@g.us", 6, .bind sampleWork sampleSession),
      ("1@g.us", 7, .nativeJournalBegin sampleWork "attempt-1" sampleAttempt sampleSession),
      ("1@g.us", 300, .appAcquire "app2" 100)]

theorem lostAttemptCalls_driven : Driven ["1@g.us"] id 0 lostAttemptCalls := by
  simp [lostAttemptCalls, sampleCalls, Driven, Call.Issued, sampleEvent, sampleWork,
    sampleAttempt, WorkArgs.OwnedBy]

/-- The second application tries to go on. -/
def retryCalls : List (String × Nat × Op NotificationV2) :=
  [("1@g.us", 301, .recoverPel ⟨"app2", "2", "worker2", ⟨0, 0⟩, 10⟩),
    ("1@g.us", 302, .claim ⟨"app2", "2", "worker2", 50, 10⟩)]

theorem retryCalls_driven : Driven ["1@g.us"] id 300 retryCalls := by
  simp [retryCalls, Driven, Call.Issued]

/-- The cursor of the chat does not move any more. -/
theorem uncertain_mutation_freezes_of_lostAttemptCalls :
    ((((Store.empty 0).drive lostAttemptCalls).2.drive retryCalls).2.core "1@g.us").cursor =
      (((Store.empty 0).drive lostAttemptCalls).2.core "1@g.us").cursor :=
  ((uncertain_mutation_freezes (drive_exec lostAttemptCalls_driven)).2 "1@g.us" "attempt-1"
    ⟨sampleAttempt, rfl, Or.inr ⟨rfl, by decide⟩⟩ _ _ (drive_exec retryCalls_driven)).2.1

end WhatsAppMcp.Controller.Redis
