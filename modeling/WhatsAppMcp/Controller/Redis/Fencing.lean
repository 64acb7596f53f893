import WhatsAppMcp.Controller.Redis.Coherence
import WhatsAppMcp.Lib.Lease

/-!
# Fencing

A worker shows its authority with the tuple that a grant gave it: the
application fence, the chat fence and the event.  `work()` compares all of it
with the two lease hashes at the time of the call.

The hashes of the application and of a chat are two leases in the sense of
`Lease`: `AppHash.Shows` and `LeaseHash.Shows` read them as such, and `app_move`
and `chat_move` show that a script only ever makes a move of a lease service.
From there:

* `work_unique`: one tuple at a time passes.
* `claim_keeps_live_lease`: no claim and no repair takes over a live lease.
* `grants_pairwise`: epochs go up from grant to grant.
* `lapsed_run`: a tuple that has failed once fails for ever.
* `guarded_lost`: a call with a failing tuple changes nothing.
-/

namespace WhatsAppMcp.Controller.Redis

open Trace (Exec)

variable {Fp : Type}

/-! ## The hashes as leases -/

/-- The epoch field is that of a lease; a missing one means no grant yet. -/
def Tenure.EpochIs (t : Tenure) (epoch : Nat) : Prop :=
  t.epoch = some epoch.repr ∨ t.epoch = none ∧ t.owner = none ∧ epoch = 0

/-- The application hash shows this lease. -/
structure AppHash.Shows (h : AppHash) (l : Lease String) : Prop where
  epoch : h.toTenure.EpochIs l.epoch
  holder : h.owner = l.holder
  deadline : h.untilMs.getD 0 = l.deadline

/-- Who holds a chat lease: a chat owner under an application fence, for an event. -/
structure Holder where
  chatOwner : String
  appOwner : String
  appEpoch : String
  event : String
  deriving DecidableEq, Repr

/-- The lease hash names this holder. -/
def LeaseHash.HeldBy (h : LeaseHash) (x : Holder) : Prop :=
  h.owner = some x.chatOwner ∧ h.SameApp x.appOwner x.appEpoch ∧ h.event = some x.event

/-- The lease hash shows this lease. -/
structure LeaseHash.Shows (h : LeaseHash) (l : Lease Holder) : Prop where
  epoch : h.toTenure.EpochIs l.epoch
  holder : ∀ x, h.HeldBy x ↔ l.holder = some x
  deadline : h.untilMs.getD 0 = l.deadline

/-- The holder that a tuple names. -/
def WorkArgs.holder (w : WorkArgs Fp) : Holder :=
  ⟨w.chatOwner, w.appOwner, w.appEpoch, w.eventId⟩

theorem Tenure.EpochIs.counter_eq {t : Tenure} {n : Nat} (h : t.EpochIs n) :
    counter t.epoch = n.repr := by
  rcases h with h | ⟨h, -, rfl⟩ <;> rw [counter, h] <;> rfl

theorem Tenure.EpochIs.bump_eq {t : Tenure} {n : Nat} (h : t.EpochIs n) :
    Decimal.inc (counter t.epoch) = (n + 1).repr := by
  rw [h.counter_eq, Decimal.inc_repr]

/-- A tenure with an owner under an epoch is under the epoch of its lease. -/
theorem Tenure.EpochIs.eq_of_some {t : Tenure} {n : Nat} {epoch : String} (h : t.EpochIs n)
    (hepoch : t.epoch = some epoch) : epoch = n.repr := by
  rcases h with h | ⟨h, -, -⟩ <;> rw [hepoch] at h
  · exact Option.some.inj h
  · cases h

theorem Tenure.EpochIs.of_owner {t : Tenure} {n : Nat} {owner : String} (h : t.EpochIs n)
    (howner : t.owner = some owner) : t.epoch = some n.repr := by
  rcases h with h | ⟨-, h, -⟩
  · exact h
  · rw [howner] at h; cases h

/-- `alive(app,…)` is the authority of the lease the hash shows. -/
theorem AppHash.Shows.alive_iff {h : AppHash} {l : Lease String} (hshows : h.Shows l)
    {owner : String} {epoch now : Nat} :
    h.Alive owner epoch.repr now ↔ l.Alive owner epoch now := by
  constructor
  · rintro ⟨howner, hepoch, hnow⟩
    have := Decimal.repr_injective (hshows.epoch.eq_of_some hepoch)
    exact ⟨hshows.holder ▸ howner, this.symm, hshows.deadline ▸ hnow⟩
  · rintro ⟨hholder, rfl, hnow⟩
    have howner := hshows.holder.trans hholder
    exact ⟨howner, hshows.epoch.of_owner howner, hshows.deadline ▸ hnow⟩

/-- `alive(lease,…)` with the comparisons of `fence()` and of the event. -/
theorem LeaseHash.Shows.alive_iff {h : LeaseHash} {l : Lease Holder} (hshows : h.Shows l)
    {x : Holder} {epoch now : Nat} :
    h.Alive x.chatOwner epoch.repr now ∧ h.SameApp x.appOwner x.appEpoch ∧
      h.event = some x.event ↔ l.Alive x epoch now := by
  constructor
  · rintro ⟨⟨howner, hepoch, hnow⟩, happ, hevent⟩
    have := Decimal.repr_injective (hshows.epoch.eq_of_some hepoch)
    exact ⟨(hshows.holder x).mp ⟨howner, happ, hevent⟩, this.symm, hshows.deadline ▸ hnow⟩
  · rintro ⟨hholder, rfl, hnow⟩
    obtain ⟨howner, happ, hevent⟩ := (hshows.holder x).mpr hholder
    exact ⟨⟨howner, hshows.epoch.of_owner howner, hshows.deadline ▸ hnow⟩, happ, hevent⟩

/-! ## Scripts make moves of a lease service -/

section Moves

variable [DecidableEq Fp] {fingerprint : NotificationV2 → Fp} {clk : Clock} {k : Keys Fp}
  {op : Op Fp} {r : Reply Fp} {d : Core Fp}

theorem app_move {l : Lease String} {time : Nat} (heffect : Effect fingerprint clk k op r d)
    (hshows : k.app.Shows l) (htime : time ≤ clk.now 0) :
    ∃ l', d.app.Shows l' ∧ Lease.Move time l l' := by
  cases heffect with
  | @appGranted owner leaseMs =>
    refine ⟨⟨some owner, l.epoch + 1, clk.now 1 + leaseMs⟩, ⟨Or.inl ?_, rfl, rfl⟩, .grant _ _⟩
    exact congrArg some hshows.epoch.bump_eq
  | @appRenewed owner epoch leaseMs halive =>
    refine ⟨{ l with deadline := clk.now 1 + leaseMs }, ⟨hshows.epoch, hshows.holder, rfl⟩, ?_⟩
    obtain rfl := hshows.epoch.eq_of_some halive.2.1
    exact .renew ((hshows.alive_iff.mp halive).earlier htime) _
  | appReleased halive =>
    obtain rfl := hshows.epoch.eq_of_some halive.2.1
    exact ⟨⟨none, l.epoch, 0⟩, ⟨Or.inl halive.2.1, rfl, rfl⟩, .drop _⟩
  | _ => exact ⟨l, ⟨hshows.epoch, hshows.holder, hshows.deadline⟩, .keep⟩

theorem chat_move {l : Lease Holder} {time : Nat} (heffect : Effect fingerprint clk k op r d)
    (hshows : k.lease.Shows l) (htime : time ≤ clk.now 0) :
    ∃ l', d.lease.Shows l' ∧ Lease.Move time l l' := by
  have hdropped : ∀ intent, ({ k.lease.release with repairIntent := intent } : LeaseHash).Shows
      ⟨none, l.epoch, 0⟩ := by
    intro intent
    refine ⟨?_, fun x => ⟨fun h => absurd h.1 (by simp [LeaseHash.release]), nofun⟩, rfl⟩
    exact hshows.epoch.imp id fun h => ⟨h.1, rfl, h.2.2⟩
  cases heffect with
  | @granted _ _ w event e untilMs intent hobs halive hfree hhead hevent hepoch =>
    refine ⟨⟨some ⟨w.chatOwner, w.appOwner, w.appEpoch, event⟩, l.epoch + 1, untilMs⟩,
      ⟨Or.inl ?_, ?_, rfl⟩, .grant _ _⟩
    · exact congrArg some (hepoch.trans hshows.epoch.bump_eq)
    · rintro ⟨chatOwner, appOwner, appEpoch, event'⟩
      simp [LeaseHash.HeldBy, LeaseHash.SameApp, LeaseHash.grant]
      grind
  | @renewed w leaseMs e hwork =>
    refine ⟨{ l with deadline := clk.now 2 + leaseMs }, ⟨hshows.epoch, hshows.holder, rfl⟩, ?_⟩
    obtain ⟨⟨-, halive, happ⟩, -, -, -, hevent⟩ := work_eq_some hwork
    obtain hepoch := hshows.epoch.eq_of_some halive.2.1
    rw [hepoch] at halive
    exact .renew (((hshows.alive_iff (x := w.holder)).mp ⟨halive, happ, hevent⟩).earlier
      (le_trans htime (clk.mono (by decide)))) _
  | released => exact ⟨_, hdropped none, .drop 0⟩
  | completed => exact ⟨_, hdropped k.lease.repairIntent, .drop 0⟩
  | _ => exact ⟨l, hshows, .keep⟩

end Moves

/-- The application hash and every lease hash show a lease. -/
structure Store.Leased (s : Store Fp) : Prop where
  app : ∃ l, s.app.Shows l
  chat : ∀ chat, ∃ l, (s.chats chat).lease.Shows l

theorem empty_leased (time : Nat) : (Store.empty time : Store Fp).Leased where
  app := ⟨⟨none, 0, 0⟩, Or.inr ⟨rfl, rfl, rfl⟩, rfl, rfl⟩
  chat _ := ⟨⟨none, 0, 0⟩, Or.inr ⟨rfl, rfl, rfl⟩, fun _ => ⟨nofun, nofun⟩, rfl⟩

section Steps

variable [DecidableEq Fp] {chats : List String} {fingerprint : NotificationV2 → Fp}
  {s t : Store Fp} {l : Label Fp} {chat : String}

/-- One step of the store is one move of the application lease and one of each
chat lease. -/
theorem step_moves (hstep : Store.Step chats fingerprint s l t) {a : Lease String}
    {m : Lease Holder} (ha : s.app.Shows a) (hm : (s.chats chat).lease.Shows m) :
    ∃ a' m', t.app.Shows a' ∧ (t.chats chat).lease.Shows m' ∧
      Lease.Move s.time a a' ∧ Lease.Move s.time m m' := by
  obtain ⟨-, ⟨-, hcore⟩ | ⟨c, r, -, -, hstart, -, heffect, hother⟩⟩ := hstep.cases_on_core
  · have happ : t.app = s.app := congrArg Core.app (hcore chat)
    have hlease : (t.chats chat).lease = (s.chats chat).lease := congrArg Core.lease (hcore chat)
    exact ⟨a, m, happ ▸ ha, hlease ▸ hm, .keep, .keep⟩
  · obtain ⟨a', ha', hmove⟩ := app_move heffect ha hstart
    by_cases hne : chat = c.chat
    · subst hne
      obtain ⟨m', hm', hmove'⟩ := chat_move heffect hm hstart
      exact ⟨a', m', ha', hm', hmove, hmove'⟩
    · have hlease : (t.chats chat).lease = (s.chats chat).lease :=
        congrArg Core.lease (hother chat hne)
      exact ⟨a', m, ha', hlease ▸ hm, hmove, .keep⟩

theorem step_leased (h : s.Leased) (hstep : Store.Step chats fingerprint s l t) : t.Leased := by
  obtain ⟨a, ha⟩ := h.app
  constructor
  · obtain ⟨m, hm⟩ := h.chat ""
    obtain ⟨a', -, ha', -⟩ := step_moves hstep ha hm
    exact ⟨a', ha'⟩
  · intro chat
    obtain ⟨m, hm⟩ := h.chat chat
    obtain ⟨-, m', -, hm', -⟩ := step_moves hstep ha hm
    exact ⟨m', hm'⟩

/-! ## Tuples that have lapsed -/

/-- The leases that the tuple names are alive at `time`. -/
def Core.Holds (c : Core Fp) (w : WorkArgs Fp) (time : Nat) : Prop :=
  c.app.Alive w.appOwner w.appEpoch time ∧ c.lease.Alive w.chatOwner w.chatEpoch time ∧
    c.lease.SameApp w.appOwner w.appEpoch ∧ c.lease.event = some w.eventId

instance (c : Core Fp) (w : WorkArgs Fp) (time : Nat) : Decidable (c.Holds w time) :=
  inferInstanceAs (Decidable (_ ∧ _ ∧ _ ∧ _))

/-- The store has come to the epochs of the tuple, and while the lease is still
of that epoch the record of the event is the one the tuple names. -/
structure Known (c : Core Fp) (w : WorkArgs Fp) : Prop where
  app : ∃ l epoch, c.app.Shows l ∧ w.appEpoch = epoch.repr ∧ epoch ≤ l.epoch
  chat : ∃ l epoch, c.lease.Shows l ∧ w.chatEpoch = epoch.repr ∧ epoch ≤ l.epoch
  record : c.lease.epoch = some w.chatEpoch → c.lease.event = some w.eventId →
    ∃ e, c.events.lookup w.eventId = some e ∧ e.id = w.streamId ∧ e.fp = w.fingerprint

omit [DecidableEq Fp] in
theorem Tenure.Alive.earlier {t : Tenure} {owner epoch : String} {now later : Nat}
    (h : t.Alive owner epoch later) (hle : now ≤ later) : t.Alive owner epoch now :=
  ⟨h.1, h.2.1, lt_of_le_of_lt hle h.2.2⟩

theorem holds_of_work {clk : Clock} {k : Keys Fp} {w : WorkArgs Fp} {e : EventRecord Fp}
    {time : Nat} (h : k.work clk w = some e) (htime : time ≤ clk.now 0) : k.core.Holds w time := by
  obtain ⟨⟨happ, hchat, hsame⟩, -, -, -, hevent⟩ := work_eq_some h
  exact ⟨happ.earlier htime, hchat.earlier (le_trans htime (clk.mono (by decide))), hsame, hevent⟩

theorem work_of_holds {clk : Clock} {k : Keys Fp} {w : WorkArgs Fp} (hknown : Known k.core w)
    (h : k.core.Holds w (clk.now 1)) : ∃ e, k.work clk w = some e := by
  obtain ⟨happ, hchat, hsame, hevent⟩ := h
  obtain ⟨e, he, hid, hfp⟩ := hknown.record hchat.2.1 hevent
  have hfenced : k.Fenced clk w := ⟨happ.earlier (clk.mono (by decide)), hchat, hsame⟩
  refine ⟨e, ?_⟩
  have he' : k.events.lookup w.eventId = some e := he
  have hevent' : k.lease.event = some w.eventId := hevent
  simp [Keys.work, hfenced, he', hid, hfp, hevent']

omit [DecidableEq Fp] in
/-- A tuple that does not hold its leases does not hold them after moves of both. -/
theorem not_holds_of_moves {c d : Core Fp} {w : WorkArgs Fp} {time later : Nat}
    {a a' : Lease String} {m m' : Lease Holder} (hknown : Known c w) (ha : c.app.Shows a)
    (hm : c.lease.Shows m) (ha' : d.app.Shows a') (hm' : d.lease.Shows m')
    (hmoveA : Lease.Move time a a') (hmoveM : Lease.Move time m m') (hle : time ≤ later)
    (hlapsed : ¬ c.Holds w time) : ¬ d.Holds w later := by
  obtain ⟨l, appEpoch, hl, happEpoch, hleA⟩ := hknown.app
  obtain ⟨n, chatEpoch, hn, hchatEpoch, hleM⟩ := hknown.chat
  have hepochA : l.epoch = a.epoch :=
    Decimal.repr_injective (hl.epoch.counter_eq.symm.trans ha.epoch.counter_eq)
  have hepochM : n.epoch = m.epoch :=
    Decimal.repr_injective (hn.epoch.counter_eq.symm.trans hm.epoch.counter_eq)
  have hsplit : ¬ a.Alive w.appOwner appEpoch time ∨ ¬ m.Alive w.holder chatEpoch time := by
    by_contra hboth
    push Not at hboth
    rw [← ha.alive_iff, ← hm.alive_iff, ← happEpoch, ← hchatEpoch] at hboth
    exact hlapsed hboth
  intro hholds
  have hholds' : d.app.Alive w.appOwner appEpoch.repr later ∧
      (d.lease.Alive w.holder.chatOwner chatEpoch.repr later ∧
        d.lease.SameApp w.holder.appOwner w.holder.appEpoch ∧
          d.lease.event = some w.holder.event) := by
    rw [← happEpoch, ← hchatEpoch]
    exact hholds
  rw [ha'.alive_iff, hm'.alive_iff] at hholds'
  rcases hsplit with hA | hM
  · exact hmoveA.lapsed (hepochA ▸ hleA) hA hle hholds'.1
  · exact hmoveM.lapsed (hepochM ▸ hleM) hM hle hholds'.2

/-- The events of a call stay while its lease keeps its event. -/
theorem record_effect {clk : Clock} {k : Keys Fp} {op : Op Fp} {r : Reply Fp} {d : Core Fp}
    {w : WorkArgs Fp} {m : Lease Holder} {epoch : Nat}
    (heffect : Effect fingerprint clk k op r d) (hm : k.lease.Shows m)
    (hepoch : w.chatEpoch = epoch.repr) (hle : epoch ≤ m.epoch)
    (hrecord : k.lease.epoch = some w.chatEpoch → k.lease.event = some w.eventId →
      ∃ e, k.events.lookup w.eventId = some e ∧ e.id = w.streamId ∧ e.fp = w.fingerprint) :
    d.lease.epoch = some w.chatEpoch → d.lease.event = some w.eventId →
      ∃ e, d.events.lookup w.eventId = some e ∧ e.id = w.streamId ∧ e.fp = w.fingerprint := by
  cases heffect with
  | @accepted revision identityRevision event fp _ _ _ hnew =>
    intro hlease hevent
    obtain ⟨e, he, hfields⟩ := hrecord hlease hevent
    refine ⟨e, ?_, hfields⟩
    rw [AList.lookup_insert_ne, he]
    rintro heq
    rw [heq, hnew] at he
    cases he
  | @granted _ _ w' event e untilMs intent hobs halive hfree hhead hevent hepoch' =>
    intro hlease
    have hnext := hepoch'.symm.trans (Option.some.inj hlease)
    rw [hm.epoch.bump_eq, hepoch] at hnext
    have := Decimal.repr_injective hnext
    omega
  | released | completed => exact fun _ hevent => nomatch hevent
  | _ => exact hrecord

theorem step_known (hstep : Store.Step chats fingerprint s l t) {w : WorkArgs Fp}
    (h : Known (s.core chat) w) : Known (t.core chat) w := by
  obtain ⟨a, appEpoch, ha, happEpoch, hleA⟩ := h.app
  obtain ⟨m, chatEpoch, hm, hchatEpoch, hleM⟩ := h.chat
  obtain ⟨a', m', ha', hm', hmoveA, hmoveM⟩ := step_moves hstep ha hm
  refine ⟨⟨a', appEpoch, ha', happEpoch, le_trans hleA hmoveA.epoch_le⟩,
    ⟨m', chatEpoch, hm', hchatEpoch, le_trans hleM hmoveM.epoch_le⟩, ?_⟩
  obtain ⟨-, ⟨-, hcore⟩ | ⟨c, r, -, -, -, -, heffect, hother⟩⟩ := hstep.cases_on_core
  · exact hcore chat ▸ h.record
  · by_cases hne : chat = c.chat
    · subst hne
      exact record_effect heffect hm hchatEpoch hleM h.record
    · rw [hother chat hne]
      exact h.record

theorem step_lapsed (hstep : Store.Step chats fingerprint s l t) (hleased : s.Leased)
    {w : WorkArgs Fp} (hknown : Known (s.core chat) w) (h : ¬ (s.core chat).Holds w s.time) :
    ¬ (t.core chat).Holds w t.time := by
  obtain ⟨a, ha⟩ := hleased.app
  obtain ⟨m, hm⟩ := hleased.chat chat
  obtain ⟨a', m', ha', hm', hmoveA, hmoveM⟩ := step_moves hstep ha hm
  exact not_holds_of_moves hknown ha hm ha' hm' hmoveA hmoveM hstep.cases_on_core.1 h

/-- A tuple that does not hold its leases never passes again. -/
theorem lapsed_run {es : List (Label Fp)} (hrun : Exec (Store.Step chats fingerprint) s es t)
    (hleased : s.Leased) {w : WorkArgs Fp} (hknown : Known (s.core chat) w)
    (h : ¬ (s.core chat).Holds w s.time) {clk : Clock} (htime : t.time ≤ clk.now 0) :
    (t.keys chat).work clk w = none := by
  obtain ⟨-, -, hlapsed⟩ : t.Leased ∧ Known (t.core chat) w ∧ ¬ (t.core chat).Holds w t.time :=
    hrun.invariant (P := fun s => s.Leased ∧ Known (s.core chat) w ∧ ¬ (s.core chat).Holds w s.time)
      ⟨hleased, hknown, h⟩ fun _ _ _ hP hstep =>
        ⟨step_leased hP.1 hstep, step_known hstep hP.2.1, step_lapsed hstep hP.1 hP.2.1 hP.2.2⟩
  by_contra hwork
  obtain ⟨e, he⟩ := Option.ne_none_iff_exists'.mp hwork
  exact hlapsed (holds_of_work he htime)

/-! ## Grants -/

/-- The granted tuple of an observation. -/
def Observation.grant? : String × Observation Fp → Option (String × WorkArgs Fp)
  | (chat, .granted w) => some (chat, w)
  | _ => none

/-- The application fence granted by an observation. -/
def Observation.appGrant? : String × Observation Fp → Option (String × String)
  | (_, .appGranted owner epoch) => some (owner, epoch)
  | _ => none

omit [DecidableEq Fp] in
theorem Observation.grant?_eq_some {chat chat' : String} {o : Observation Fp} {w : WorkArgs Fp}
    (h : Observation.grant? (chat, o) = some (chat', w)) : chat = chat' ∧ o = .granted w := by
  cases o <;> cases h
  exact ⟨rfl, rfl⟩

omit [DecidableEq Fp] in
theorem Observation.appGrant?_eq_some {chat owner epoch : String} {o : Observation Fp}
    (h : Observation.appGrant? (chat, o) = some (owner, epoch)) : o = .appGranted owner epoch := by
  cases o <;> cases h
  rfl

/-- The grants of a run, in order, each with its chat. -/
def grants (fingerprint : NotificationV2 → Fp) (ls : List (Label Fp)) :
    List (String × WorkArgs Fp) :=
  (observed fingerprint ls).filterMap Observation.grant?

/-- The application fences granted in a run, in order. -/
def appGrants (fingerprint : NotificationV2 → Fp) (ls : List (Label Fp)) :
    List (String × String) :=
  (observed fingerprint ls).filterMap Observation.appGrant?

/-- A grant makes its tuple known, and moves the epoch of the chat up. -/
theorem granted_known (hcoherent : s.Coherent fingerprint) (hleased : s.Leased) {c : Call Fp}
    {r : Reply Fp} (hstep : Store.Step chats fingerprint s (some (c, r)) t) {w : WorkArgs Fp}
    (hobs : observe fingerprint c.op r = some (.granted w)) :
    Known (t.core c.chat) w ∧
      ∀ v, Known (s.core c.chat) v → Decimal.less v.chatEpoch w.chatEpoch = true := by
  obtain ⟨-, ⟨hnone, -⟩ | ⟨c, r, heq, -, -, -, heffect, -⟩⟩ := hstep.cases_on_core
  · cases hnone
  cases heq
  obtain ⟨event, e, untilMs, intent, halive, -, hhead, hevent, hepoch, hid, hraw, hfp, -, hd⟩ :=
    heffect.of_granted hobs
  obtain ⟨a, ha⟩ := hleased.app
  obtain ⟨m, hm⟩ := hleased.chat c.chat
  have hwritten : ∃ l, (t.core c.chat).lease.Shows l ∧ l.epoch = m.epoch + 1 := by
    obtain ⟨-, m', -, hm', -, -⟩ := step_moves hstep ha hm
    refine ⟨m', hm', Decimal.repr_injective ?_⟩
    have hcounter := hm'.epoch.counter_eq
    rw [show (t.chats c.chat).lease = (t.core c.chat).lease from rfl, hd] at hcounter
    rw [← hcounter, ← hm.epoch.bump_eq]
    exact hepoch
  have hnext : w.chatEpoch = (m.epoch + 1).repr := hepoch.trans hm.epoch.bump_eq
  have hraw' := (hcoherent.chat c.chat).raw event e hevent
  refine ⟨⟨?_, ?_, ?_⟩, ?_⟩
  · have happ : (t.core c.chat).app = s.app := by rw [hd]; rfl
    exact ⟨a, a.epoch, happ ▸ ha, ha.epoch.eq_of_some halive.2.1, le_refl _⟩
  · obtain ⟨l, hl, hle⟩ := hwritten
    exact ⟨l, m.epoch + 1, hl, hnext, hle.ge⟩
  · intro _ _
    rw [hd, hraw, hraw'.1]
    exact ⟨e, hevent, hid.symm, by rw [hfp, hraw'.2.2.2]⟩
  · intro v hv
    obtain ⟨l, epoch, hl, hv', hle⟩ := hv.chat
    have hsame : l.epoch = m.epoch :=
      Decimal.repr_injective (hl.epoch.counter_eq.symm.trans hm.epoch.counter_eq)
    rw [hv', hnext, Decimal.less_repr]
    omega

/-- The grants of one chat have increasing epochs, and the store knows them. -/
theorem grants_pairwise {time : Nat} {es : List (Label Fp)}
    (h : Exec (Store.Step chats fingerprint) (Store.empty time) es t) :
    (grants fingerprint es).Pairwise (fun a b => a.1 = b.1 →
        Decimal.less a.2.chatEpoch b.2.chatEpoch = true) ∧
      ∀ g ∈ grants fingerprint es, Known (t.core g.1) g.2 := by
  rw [grants, observed, List.filterMap_filterMap]
  refine h.marks_pairwise (P := fun s => s.Coherent fingerprint ∧ s.Leased)
    (B := fun s (g : String × WorkArgs Fp) => Known (s.core g.1) g.2) ⟨empty_coherent _ _, empty_leased _⟩
    (fun _ _ _ hP hstep => ⟨step_coherent hP.1 hstep, step_leased hP.2 hstep⟩)
    (fun _ _ _ _ _ hstep hbound => step_known hstep hbound) ?_
  rintro s l t ⟨chat, w⟩ ⟨hcoherent, hleased⟩ hstep hmark
  obtain ⟨c, r, o, rfl, hobs, hgrant⟩ := Label.observation_bind hmark
  obtain ⟨rfl, rfl⟩ := Observation.grant?_eq_some hgrant
  obtain ⟨hknown, habove⟩ := granted_known hcoherent hleased hstep hobs
  refine ⟨hknown, ?_⟩
  rintro ⟨chat, v⟩ hv rfl
  exact habove v hv

/-- The application grants have increasing epochs. -/
theorem appGrants_pairwise {time : Nat} {es : List (Label Fp)}
    (h : Exec (Store.Step chats fingerprint) (Store.empty time) es t) :
    (appGrants fingerprint es).Pairwise fun a b => Decimal.less a.2 b.2 = true := by
  rw [appGrants, observed, List.filterMap_filterMap]
  refine (h.marks_pairwise (P := Store.Leased)
    (B := fun s (g : String × String) => ∃ l epoch, s.app.Shows l ∧ g.2 = epoch.repr ∧ epoch ≤ l.epoch)
    (empty_leased _) (fun _ _ _ hP hstep => step_leased hP hstep) ?_ ?_).1
  · rintro s l t ⟨owner, epoch⟩ hleased hstep ⟨a, n, ha, hn, hle⟩
    obtain ⟨m, hm⟩ := hleased.chat ""
    obtain ⟨a', -, ha', -, hmove, -⟩ := step_moves hstep ha hm
    exact ⟨a', n, ha', hn, le_trans hle hmove.epoch_le⟩
  · rintro s l t ⟨owner, epoch⟩ hleased hstep hmark
    obtain ⟨c, r, o, rfl, hobs, hgrant⟩ := Label.observation_bind hmark
    obtain rfl := Observation.appGrant?_eq_some hgrant
    obtain ⟨-, ⟨hnone, -⟩ | ⟨c, r, heq, -, -, -, heffect, -⟩⟩ := hstep.cases_on_core
    · cases hnone
    cases heq
    obtain ⟨hepoch, hwritten⟩ := heffect.of_appGranted hobs
    obtain ⟨a, ha⟩ := hleased.app
    have hnext := hepoch.trans ha.epoch.bump_eq
    obtain ⟨l', hl'⟩ := (step_leased hleased hstep).app
    have hreached := hl'.epoch.eq_of_some hwritten
    refine ⟨⟨l', l'.epoch, hl', hreached, le_refl _⟩, ?_⟩
    rintro ⟨owner', epoch'⟩ ⟨b, n, hb, rfl, hle⟩
    have hsame : b.epoch = a.epoch :=
      Decimal.repr_injective (hb.epoch.counter_eq.symm.trans ha.epoch.counter_eq)
    rw [hnext, Decimal.less_repr]
    omega

/-! ## The laws of fencing -/

/-- One tuple at a time passes: it is the one the hashes hold. -/
theorem work_unique {k : Keys Fp} {clk clk' : Clock} {w w' : WorkArgs Fp} {e e' : EventRecord Fp}
    (h : k.work clk w = some e) (h' : k.work clk' w' = some e') : w = w' := by
  obtain ⟨⟨⟨howner, hepoch, -⟩, ⟨hchat, hchatEpoch, -⟩, -⟩, hevent, hid, hfp, hhead⟩ :=
    work_eq_some h
  obtain ⟨⟨⟨howner', hepoch', -⟩, ⟨hchat', hchatEpoch', -⟩, -⟩, hevent', hid', hfp', hhead'⟩ :=
    work_eq_some h'
  have hsame : w.eventId = w'.eventId := Option.some.inj (hhead.symm.trans hhead')
  rw [← hsame, hevent] at hevent'
  obtain rfl := Option.some.inj hevent'
  obtain ⟨⟩ := w
  obtain ⟨⟩ := w'
  simp_all

/-- The operations that take the chat lease over. -/
def Op.Claims : Op Fp → Prop
  | .claim _ | .repairIntent _ | .repairClaim _ _ => True
  | _ => False

/-- No claim and no repair takes over a lease that is live under the live
application fence. -/
theorem claim_keeps_live_lease {c : Call Fp} {r : Reply Fp}
    (hstep : Store.Step chats fingerprint s (some (c, r)) t) (hop : c.op.Claims)
    {owner epoch : String} (happ : s.app.Alive owner epoch (c.clk.now 0))
    (hlive : (s.keys c.chat).Leased c.clk owner epoch) :
    (t.chats c.chat).lease = (s.chats c.chat).lease := by
  obtain ⟨-, ⟨hnone, -⟩ | ⟨c, r, heq, -, -, -, heffect, -⟩⟩ := hstep.cases_on_core
  · cases hnone
  cases heq
  change (t.core c.chat).lease = _
  generalize t.core c.chat = d at heffect
  generalize hop' : c.op = op at heffect hop
  cases heffect with
  | quiet | swept => rfl
  | granted _ _ _ halive hfree =>
    obtain rfl := Option.some.inj (halive.1.symm.trans happ.1)
    obtain rfl := Option.some.inj (halive.2.1.symm.trans happ.2.1)
    exact absurd hlive hfree
  | @released op hreleases => cases op <;> first | exact hop.elim | exact hreleases.elim
  | _ => exact hop.elim

/-- The tuple that an operation checks with `work()` first. -/
def Op.guard? : Op Fp → Option (WorkArgs Fp)
  | .repairRelease w _ | .checkWork w | .turnState w | .beginTurn w | .renew w _ | .pause w _
  | .bind w _ | .complete w _ _ | .journalBegin w _ _ | .nativeJournalBegin w _ _ _
  | .journalTransition w _ _ | .checkpointPrepare w _ _ | .checkpointTransition w _ _ _ _ _
  | .checkpointAbort w _ _ _ _ _ => some w
  | _ => none

/-- A call with a failing tuple reports the loss and leaves every key. -/
theorem guarded_lost {clk : Clock} {k : Keys Fp} {op : Op Fp} {w : WorkArgs Fp}
    (hguard : op.guard? = some w) (hwork : k.work clk w = none) : op.run clk k = (.lost, k) := by
  have hlost : ∀ body, guarded clk k w body = (.lost, k) := fun body => by rw [guarded, hwork]
  cases op <;> cases hguard <;> exact hlost _

/-- At every state of every run: one tuple at a time passes `work()`; no claim
or repair takes over a live lease; a granted tuple that fails once fails for
ever, as epochs go up from grant to grant; and a guarded call with a failing
tuple reports the loss and moves nothing but the clock. -/
theorem store_fencing {time : Nat} {es : List (Label Fp)}
    (h : Exec (Store.Step chats fingerprint) (Store.empty time) es s) :
    (∀ chat clk clk' w w' e e', (s.keys chat).work clk w = some e →
      (s.keys chat).work clk' w' = some e' → w = w') ∧
    (∀ c r t owner epoch, Store.Step chats fingerprint s (some (c, r)) t → c.op.Claims →
      s.app.Alive owner epoch (c.clk.now 0) → (s.keys c.chat).Leased c.clk owner epoch →
      (t.chats c.chat).lease = (s.chats c.chat).lease) ∧
    (∀ chat w clk, (chat, w) ∈ grants fingerprint es → s.time ≤ clk.now 0 →
      (s.keys chat).work clk w = none →
      ∀ fs t clk', Exec (Store.Step chats fingerprint) { s with time := clk.now 1 } fs t →
        t.time ≤ clk'.now 0 → (t.keys chat).work clk' w = none) ∧
    (grants fingerprint es).Pairwise (fun a b => a.1 = b.1 →
      Decimal.less a.2.chatEpoch b.2.chatEpoch = true) ∧
    (appGrants fingerprint es).Pairwise (fun a b => Decimal.less a.2 b.2 = true) ∧
    ∀ c r t w, Store.Step chats fingerprint s (some (c, r)) t → c.op.guard? = some w →
      (s.keys c.chat).work c.clk w = none → r = .lost ∧ t = { s with time := t.time } := by
  have hleased : s.Leased := h.invariant (empty_leased time) fun _ _ _ hs hstep =>
    step_leased hs hstep
  obtain ⟨hpairwise, hknown⟩ := grants_pairwise h
  refine ⟨fun _ _ _ _ _ _ _ => work_unique,
    fun _ _ _ _ _ hstep hop happ hlive => claim_keeps_live_lease hstep hop happ hlive, ?_,
    hpairwise, appGrants_pairwise h, ?_⟩
  · intro chat w clk hgrant _ hfails fs t clk' hrun htime
    refine lapsed_run hrun ⟨hleased.app, hleased.chat⟩ (hknown _ hgrant) ?_ htime
    intro hholds
    obtain ⟨e, he⟩ := work_of_holds (hknown _ hgrant) hholds
    rw [he] at hfails
    cases hfails
  · intro c r t w hstep hguard hfails
    cases hstep with
    | call hissued hstart hend hrun =>
      rw [guarded_lost hguard hfails] at hrun
      obtain ⟨rfl, rfl⟩ := Prod.mk.inj hrun
      exact ⟨rfl, s.write_keys _ _⟩

end Steps

/-! ### A takeover -/

/-- The lease of a first claim ends, a second application takes over, and its
worker claims the same event. -/
def takeoverCalls : List (String × Nat × Op NotificationV2) :=
  [("1@g.us", 1, .init "1@g.us"), ("1@g.us", 2, .appAcquire "app" 100),
    ("1@g.us", 3, .accept "0" sampleEvent sampleEvent false "0"),
    ("1@g.us", 4, .claim ⟨"app", "1", "worker", 50, 10⟩),
    ("1@g.us", 200, .appAcquire "app2" 100),
    ("1@g.us", 201, .claim ⟨"app2", "2", "worker2", 50, 10⟩)]

theorem takeoverCalls_driven : Driven ["1@g.us"] id 0 takeoverCalls := by
  simp [takeoverCalls, Driven, Call.Issued, sampleEvent]

/-- The first worker of `takeoverCalls` has lost its chat for ever. -/
theorem store_fencing_of_takeoverCalls :
    (((Store.empty 0).drive takeoverCalls).2.keys "1@g.us").work (.frozen 300) sampleWork = none :=
  (store_fencing (drive_exec takeoverCalls_driven)).2.2.1 "1@g.us" sampleWork (.frozen 201)
    (by decide) (by decide) (by decide) [] _ (.frozen 300) .nil (by decide)

end WhatsAppMcp.Controller.Redis
