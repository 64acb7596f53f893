import WhatsAppMcp.Bridge.Connection.Permanence

/-!
# What a successful Connect stands for

`Connect` returns nil in three places: after its own connected channel was
closed, after `markConnected` of the QR loop succeeded, and where the loop finds
the QR channel closed and no terminal event in the buffer.  The first two come
from a commit of `CONNECTED`.  The third does not: the QR channel closes for
reasons of its own, such as the end of its context.

* `Vouched` is what is known of the thread of `Connect` wherever it stands, and
  `vouched_advance` is the step lemma.
* `connect_sound_iff` says of a finished call when nil stands for a commit.
-/

namespace WhatsAppMcp.Bridge.Manager

open Trace

/-! ## Commits during the call -/

/-- `Connect` has begun and has not returned. -/
def Thread.open : Thread → Bool
  | .connecting _ | .returned _ => false
  | _ => true

/-- The step commits `CONNECTED`. -/
def System.commits (s : System) : Event → Bool
  | .connected => !s.conn.permanent
  | .thread i .go => s.threads[i]? = some .qrSucceeded && !s.conn.permanent
  | _ => false

theorem System.Commits.commits {s t : System} {e : Event} (h : s.Commits e t) :
    s.commits e = true := by
  rcases h.call with rfl | ⟨i, rfl, hthread⟩
  · simp [System.commits, h.alive]
  · simp [System.commits, h.alive, hthread]

/-- The step commits `CONNECTED` during the call of `Connect`. -/
def System.connects (s : System) (e : Event) : Bool :=
  s.commits e && s.threads[0]?.any Thread.open

/-- `CONNECTED` is committed in the run, during the call of `Connect`. -/
def Committed (s₀ : System) (es : List Event) : Prop :=
  0 < tally System.step System.connects s₀ es

/-- Whenever the call has found the QR channel closed, and looks for a terminal
event, there is one or `CONNECTED` is committed. -/
def ClosesLate (s₀ : System) (es : List Event) : Prop :=
  ∀ es₁ es₂ s, es = es₁ ++ .thread 0 .go :: es₂ → Exec System.Step s₀ es₁ s →
    s.threads[0]? = some .qrDraining → s.conn.permanentDisconnect = true ∨ Committed s₀ es₁

section Committed

variable {s₀ s t : System} {es : List Event} {e : Event}

theorem Committed.snoc (h : Committed s₀ es) (run : Exec System.Step s₀ es s)
    (hstep : s.Step e t) : Committed s₀ (es ++ [e]) := by
  unfold Committed at *
  rw [tally_snoc run hstep]
  omega

/-- The last step is a commit. -/
theorem committed_of_last (run : Exec System.Step s₀ es s) (commit : s.Commits e t)
    (hopen : s.threads[0]?.any Thread.open = true) : Committed s₀ (es ++ [e]) := by
  unfold Committed
  rw [tally_snoc run commit.step, System.connects, commit.commits, hopen]
  exact Nat.succ_pos _

end Committed

/-! ## Channels -/

/-- The closed channels and the current one are older than the next one. -/
structure Connection.Fresh (c : Connection) : Prop where
  closed : ∀ ch ∈ c.closed, ch < c.nextCh
  current : c.connectedCh < c.nextCh

/-- What a step does to the connected channels.  It closes one only where `commits`
holds. -/
inductive Channels (c c' : Connection) (commits : Prop) : Prop
  | stays (hclosed : c'.closed = c.closed) (hcurrent : c'.connectedCh = c.connectedCh)
      (hnext : c'.nextCh = c.nextCh)
  | resets (hclosed : c'.closed = c.closed) (hcurrent : c'.connectedCh = c.nextCh)
      (hnext : c'.nextCh = c.nextCh + 1)
  | closes (hcommits : commits) (hclosed : ∀ ch ∈ c'.closed, ch = c.connectedCh ∨ ch ∈ c.closed)
      (hcurrent : c'.connectedCh = c.connectedCh) (hnext : c'.nextCh = c.nextCh)

section Channels

variable {c c' : Connection} {commits : Prop}

theorem channels_of_transition (state : ConnectionState) {ok : Bool}
    (hmove : c.transitionState state = (c', ok)) : Channels c c' commits := by
  unfold Connection.transitionState at hmove
  repeat' split at hmove
  all_goals
    cases hmove
    exact .stays rfl rfl rfl

theorem channels_of_markConnected {ok : Bool} (hmark : c.markConnected = (c', ok))
    (hcommits : c.permanent = false → commits) : Channels c c' commits := by
  cases hpermanent : c.permanent with
  | true =>
    rw [markConnected_final hpermanent] at hmark
    cases hmark
    exact .stays rfl rfl rfl
  | false =>
    rw [markConnected_alive hpermanent] at hmark
    cases hmark
    exact .closes (hcommits hpermanent) (fun ch hch => by simpa using hch) (by simp) (by simp)

theorem advance_channels {thread next : Thread} {choice : Choice} {spawned : Option Thread}
    (h : thread.advance c choice = some (c', next, spawned)) :
    Channels c c' (thread = .qrSucceeded ∧ choice = .go ∧ c.permanent = false) := by
  unfold Thread.advance at h
  split at h
  all_goals first
    | (cases h; done)
    | (cases h; exact .stays rfl rfl rfl)
    | (cases h; exact channels_of_transition _ (Prod.eta _).symm)
    | (split at h; cases h; exact channels_of_transition _ ‹_›)
    | (repeat' split at h
       all_goals first
         | (cases h; done)
         | (cases h; exact .stays rfl rfl rfl))
    | skip
  · -- `resetting`
    cases h
    exact .resets rfl rfl rfl
  · -- `qrSucceeded`
    split at h
    next c₁ ok hmark =>
    cases h
    exact channels_of_markConnected hmark fun halive => ⟨rfl, rfl, halive⟩

end Channels

/-- A step of the system closes a channel only where it commits. -/
theorem step_channels {s t : System} {e : Event} (hstep : s.Step e t) :
    Channels s.conn t.conn (s.Commits e t) := by
  cases e with
  | connected =>
    have hcommits : s.conn.permanent = false → s.Commits .connected t :=
      fun halive => ⟨hstep, halive, .inl rfl⟩
    cases hstep
    exact channels_of_markConnected (Prod.eta _).symm hcommits
  | disconnected =>
    cases hstep
    exact channels_of_transition .disconnected (Prod.eta _).symm
  | streamError =>
    cases hstep
    exact channels_of_transition .disconnected (Prod.eta _).symm
  | permanentDisconnect =>
    rw [step_permanent hstep]
    exact channels_of_transition _ (Prod.eta _).symm
  | stop =>
    cases hstep
    exact .stays rfl rfl rfl
  | supervise =>
    cases hstep
    exact .stays rfl rfl rfl
  | thread i choice =>
    obtain ⟨thread, c, next, spawned, hthread, hadvance, rfl⟩ := step_thread_cases hstep
    cases advance_channels hadvance with
    | stays hclosed hcurrent hnext => exact .stays hclosed hcurrent hnext
    | resets hclosed hcurrent hnext => exact .resets hclosed hcurrent hnext
    | closes hcommits hclosed hcurrent hnext =>
      obtain ⟨rfl, rfl, halive⟩ := hcommits
      exact .closes ⟨hstep, halive, .inr ⟨i, rfl, hthread⟩⟩ hclosed hcurrent hnext

theorem fresh_step {s t : System} {e : Event} (h : s.conn.Fresh) (hstep : s.Step e t) :
    t.conn.Fresh := by
  have hcurrent := h.current
  cases step_channels hstep with
  | stays hclosed hsame hnext =>
    refine ⟨fun ch hch => ?_, by omega⟩
    rw [hnext]
    exact h.closed ch (hclosed ▸ hch)
  | resets hclosed hreset hnext =>
    refine ⟨fun ch hch => ?_, by omega⟩
    have := h.closed ch (hclosed ▸ hch)
    omega
  | closes _ hclosed hsame hnext =>
    refine ⟨fun ch hch => ?_, by omega⟩
    rcases hclosed ch hch with rfl | hold
    · omega
    · have := h.closed ch hold
      omega

/-! ## The thread of Connect -/

/-- What is known of the thread: where it goes on for the sake of a closed channel
`CONNECTED` is committed. -/
def Thread.Vouched (c : Connection) (committed : Prop) : Thread → Prop
  | .dialing _ ch | .selecting _ ch | .parked _ ch => ch < c.nextCh ∧ (ch ∈ c.closed → committed)
  | .received _ => committed
  | .returned result => result = .ok () → committed
  | _ => True

section Vouched

variable {c c' : Connection} {committed : Prop} {thread : Thread}

theorem vouched_wake (h : thread.Vouched c committed) : (thread.wake c).Vouched c committed := by
  unfold Thread.wake
  split
  · split
    · next hclosed => exact h.2 hclosed
    · split
      · trivial
      · exact h
  · exact h

/-- The thread stays where it is, while the connection changes. -/
theorem vouched_mono {committed' : Prop} (h : thread.Vouched c committed)
    (hcommitted : committed → committed') (hnext : c.nextCh ≤ c'.nextCh)
    (hclosed : thread.open = true → ∀ ch < c.nextCh, ch ∈ c'.closed → ch ∈ c.closed ∨ committed') :
    thread.Vouched c' committed' := by
  cases thread with
  | dialing _ ch =>
    exact ⟨by have := h.1; omega, fun hch => (hclosed rfl ch h.1 hch).elim
      (fun hold => hcommitted (h.2 hold)) id⟩
  | selecting _ ch =>
    exact ⟨by have := h.1; omega, fun hch => (hclosed rfl ch h.1 hch).elim
      (fun hold => hcommitted (h.2 hold)) id⟩
  | parked _ ch =>
    exact ⟨by have := h.1; omega, fun hch => (hclosed rfl ch h.1 hch).elim
      (fun hold => hcommitted (h.2 hold)) id⟩
  | received _ => exact hcommitted h
  | returned _ => exact fun hok => hcommitted (h hok)
  | _ => trivial

theorem vouched_resume {caller : Caller} {result : Except ConnectError Unit}
    (h : result = .ok () → committed) : (caller.resume result).Vouched c committed := by
  cases caller with
  | connect => exact h
  | loop =>
    cases result <;> trivial

/-- The step lemma of the thread. -/
theorem vouched_advance {next : Thread} {choice : Choice} {spawned : Option Thread}
    (h : thread.Vouched c committed) (hfresh : c.Fresh)
    (hadvance : thread.advance c choice = some (c', next, spawned))
    (hdrains : thread = .qrDraining → choice = .go → c.permanentDisconnect = false → committed)
    (hmarks : thread = .qrSucceeded → choice = .go → c.permanent = false → committed) :
    next.Vouched c' committed := by
  unfold Thread.advance at hadvance
  split at hadvance
  all_goals first
    | (cases hadvance; done)
    | (repeat' split at hadvance
       all_goals first
         | (cases hadvance; done)
         | (cases hadvance; exact h)
         | (cases hadvance; trivial)
         | (cases hadvance; intro hok; cases hok; done)
         | (cases hadvance; refine vouched_resume fun hok => ?_; cases hok))
    | skip
  · -- `resetting`
    cases hadvance
    refine ⟨Nat.lt_succ_self _, fun hclosed => ?_⟩
    have := hfresh.closed c.nextCh hclosed
    omega
  · -- `selecting`
    split at hadvance
    · next hclosed =>
      cases hadvance
      exact h.2 hclosed
    · cases hadvance
  · -- `received`
    cases hadvance
    exact vouched_resume fun _ => h
  · -- `interrupted`
    cases hadvance
    refine vouched_resume fun hok => ?_
    unfold Connection.orPermanent at hok
    split at hok <;> cases hok
  · -- `qrDraining`
    split at hadvance <;> cases hadvance
    · intro hok
      cases hok
    · next hempty => exact fun _ => hdrains rfl rfl (by simpa using hempty)
  · -- `qrSucceeded`
    cases hpermanent : c.permanent with
    | true =>
      rw [markConnected_final hpermanent] at hadvance
      cases hadvance
      intro hok
      cases hok
    | false =>
      rw [markConnected_alive hpermanent] at hadvance
      cases hadvance
      exact fun _ => hmarks rfl rfl hpermanent

end Vouched

/-! ## The run -/

theorem ClosesLate.of_snoc {s₀ : System} {es : List Event} {e : Event}
    (h : ClosesLate s₀ (es ++ [e])) : ClosesLate s₀ es :=
  fun es₁ es₂ s heq => h es₁ (es₂ ++ [e]) s (by simp [heq])

/-- The run lemma. -/
theorem vouched_run {paired : Bool} {es : List Event} {s : System}
    (run : Exec System.Step (System.initial paired) es s)
    (hlate : ClosesLate (System.initial paired) es) :
    s.conn.Fresh ∧ ∃ thread, s.threads[0]? = some thread ∧
      thread.Vouched s.conn (Committed (System.initial paired) es) := by
  induction run with
  | nil => exact ⟨⟨nofun, Nat.zero_lt_one⟩, _, rfl, trivial⟩
  | @snoc es s t e run last ih =>
    obtain ⟨hfresh, thread, hthread, hvouched⟩ := ih hlate.of_snoc
    have hopen : thread.open = true → s.threads[0]?.any Thread.open = true := by
      intro h
      rw [hthread]
      exact h
    have hcommitted : Committed (System.initial paired) es →
        Committed (System.initial paired) (es ++ [e]) := fun h => h.snoc run last
    have hstays : thread.Vouched t.conn (Committed (System.initial paired) (es ++ [e])) := by
      cases step_channels last with
      | stays hclosed _ hnext =>
        exact vouched_mono hvouched hcommitted (by omega) fun _ _ _ hch => .inl (hclosed ▸ hch)
      | resets hclosed _ hnext =>
        exact vouched_mono hvouched hcommitted (by omega) fun _ _ _ hch => .inl (hclosed ▸ hch)
      | closes hcommits hclosed _ hnext =>
        refine vouched_mono hvouched hcommitted (by omega) fun h ch _ hch => ?_
        exact .inr (committed_of_last run hcommits (hopen h))
    refine ⟨fresh_step hfresh last, ?_⟩
    rcases thread_step last hthread with hsame | hwake | ⟨choice, next, _, rfl, hadvance, hnext⟩
    · exact ⟨thread, hsame, hstays⟩
    · exact ⟨_, hwake, vouched_wake hstays⟩
    · refine ⟨_, hnext, vouched_wake (vouched_advance ?_ hfresh hadvance ?_ ?_)⟩
      · exact vouched_mono hvouched hcommitted (Nat.le_refl _) fun _ _ _ hch => .inl hch
      · rintro rfl rfl hempty
        rcases hlate es [] s rfl run hthread with hbuffer | hbefore
        · rw [hempty] at hbuffer
          cases hbuffer
        · exact hcommitted hbefore
      · rintro rfl rfl halive
        exact committed_of_last run ⟨last, halive, .inr ⟨0, rfl, hthread⟩⟩ (hopen rfl)

/-! ## A finished call -/

theorem returned_step {s t : System} {e : Event} {result : Except ConnectError Unit}
    (h : s.threads[0]? = some (.returned result)) (hstep : s.Step e t) :
    t.threads[0]? = some (.returned result) := by
  rcases thread_step hstep h with hsame | hsame | ⟨choice, _, _, -, hadvance, -⟩
  · exact hsame
  · exact hsame
  · cases choice <;> cases hadvance

/-- After its return nothing happens during the call. -/
theorem returned_run {s t : System} {es : List Event} {result : Except ConnectError Unit}
    (h : s.threads[0]? = some (.returned result)) (run : Exec System.Step s es t) :
    t.threads[0]? = some (.returned result) ∧ tally System.step System.connects s es = 0 := by
  induction run with
  | nil => exact ⟨h, rfl⟩
  | @snoc es t u e run last ih =>
    obtain ⟨hreturned, hnone⟩ := ih
    refine ⟨returned_step hreturned last, ?_⟩
    rw [tally_snoc run last, hnone, System.connects, hreturned]
    simp [Thread.open]

/-- The loop that finds its channel closed, and no terminal event, returns nil. -/
theorem draining_step {s t : System} (hthread : s.threads[0]? = some .qrDraining)
    (hempty : s.conn.permanentDisconnect = false) (hstep : s.Step (.thread 0 .go) t) :
    t.threads[0]? = some (.returned (.ok ())) := by
  obtain ⟨thread, c, next, spawned, hthread', hadvance, rfl⟩ := step_thread_cases hstep
  obtain rfl := Option.some.inj (hthread.symm.trans hthread')
  simp only [Thread.advance, hempty, Bool.false_eq_true, if_false] at hadvance
  cases hadvance
  exact settle_getElem? (List.getElem?_set_self (List.getElem?_eq_some_iff.mp hthread).1)

/-- In every run in which `Connect` has returned, nil stands for a commit of
`CONNECTED` during the call exactly when the loop finds the QR channel closed only
after such a commit, or with a terminal event in the buffer. -/
theorem connect_sound_iff {paired : Bool} {es : List Event} {s : System}
    {result : Except ConnectError Unit} (run : Exec System.Step (System.initial paired) es s)
    (hreturned : s.threads[0]? = some (.returned result)) :
    (result = .ok () → Committed (System.initial paired) es) ↔
      ClosesLate (System.initial paired) es := by
  constructor
  · intro hsound es₁ es₂ u heq hfirst hthread
    subst heq
    cases hbuffer : u.conn.permanentDisconnect with
    | true => exact .inl rfl
    | false =>
      obtain ⟨u', t, hfirst', hstep, hrest⟩ := run.split_cons
      obtain rfl := hfirst.deterministic (fun _ _ _ _ h h' =>
        Option.some.inj (h.symm.trans h')) hfirst'
      obtain ⟨hlast, hnone⟩ := returned_run (draining_step hthread hbuffer hstep) hrest
      rw [hlast] at hreturned
      cases hreturned
      have hcommitted := hsound rfl
      have hdraining : u.connects (.thread 0 .go) = false := by
        simp [System.connects, System.commits, hthread]
      unfold Committed at hcommitted ⊢
      rw [tally_append hfirst, tally, show u.step _ = some t from hstep, hdraining] at hcommitted
      rw [Option.elim_some, hnone] at hcommitted
      exact .inr hcommitted
  · intro hlate hok
    obtain ⟨-, thread, hthread, hvouched⟩ := vouched_run run hlate
    obtain rfl := Option.some.inj (hreturned.symm.trans hthread)
    exact hvouched hok

/-- The call of the sample returns nil after the connected event. -/
theorem connect_sound_iff_of_sampleConnect :
    ClosesLate (System.initial true) (sampleConnect ++ [.connected, .thread 0 .go]) := by
  refine (connect_sound_iff (exec_of_run rfl) rfl).mp fun _ => ?_
  unfold Committed
  decide

/-- A device that is not paired yet waits for the scan of its code, and the QR
channel is closed. -/
def sampleUnscanned : List Event :=
  [.thread 0 .go, .thread 0 .go, .thread 0 .go, .thread 0 .succeed, .thread 0 .succeed,
    .thread 0 (.item .code), .thread 0 (.item .closed), .thread 0 .go, .thread 0 .go]

/-- `Connect` returns nil, and nothing is connected. -/
theorem unscanned_returns_nil :
    ¬ ∀ paired es s, Exec System.Step (System.initial paired) es s →
      s.threads[0]? = some (.returned (.ok ())) → Committed (System.initial paired) es := by
  intro hall
  have hcommitted := hall false sampleUnscanned _ (exec_of_run rfl) rfl
  revert hcommitted
  unfold Committed
  decide

end WhatsAppMcp.Bridge.Manager
