import WhatsAppMcp.Bridge.Connection.Stability

/-!
# A permanent disconnect is final

The handler that wins the transition sets `permanent` under `transitionMu`, and
every later critical section finds it set.  What was past its last check at
that time still runs on, up to its own next check.

* `Thread.Advanced` is what a step of any thread does to the flags.
* `final_step`: the state, the closed channels and the attempts under way after
  a step of a system with `permanent` set.
* `permanent_absorbing` is the law of the runs after the transition, and
  `terminal_run` counts the winners and the terminal events.
-/

namespace WhatsAppMcp.Bridge.Manager

open Trace

/-! ## What is counted -/

/-- The call of `HandlePermanentDisconnect` returns true. -/
def System.wins (s : System) : Event → Bool
  | .permanentDisconnect => (s.conn.transitionState .permanentlyDisconnected).2
  | _ => false

/-- The step sends the terminal event. -/
def System.publishes (s : System) (e : Event) : Bool :=
  (s.step e).any fun t => !s.conn.permanentDisconnect && t.conn.permanentDisconnect

/-- The step calls `markConnected`. -/
def System.marksConnected (s : System) : Event → Prop
  | .connected => True
  | .thread i _ => s.threads[i]? = some .qrSucceeded
  | _ => False

/-- The thread is past the last check before a call of `Connect` of the client. -/
def Thread.attempting : Thread → Bool
  | .resetting _ | .dialing _ _ => true
  | .qrAcquiring | .qrDialing => true
  | _ => false

/-- The thread is the winner's, or calls `markConnected`. -/
def Thread.special : Thread → Bool
  | .closing | .publishing | .qrSucceeded => true
  | _ => false

/-! ## One step of a thread -/

/-- What a step of a thread does to the flags of the connection. -/
structure Thread.Advanced (c : Connection) (thread : Thread) (c' : Connection) (next : Thread)
    (spawned : Option Thread) : Prop where
  permanent : c'.permanent = c.permanent
  final : c.permanent = true → c'.state = c.state ∧ c'.closed = c.closed
  attempts : c.permanent = true → next.attempting = true → thread.attempting = true
  spawned : ∀ new, spawned = some new → new.attempting = false
  published : (c'.published = c.published ∧
      (c'.permanentDisconnect = true → c.permanentDisconnect = true)) ∨
    (thread = .publishing ∧ c.published = false ∧ c'.published = true ∧
      c'.permanentDisconnect = true)
  closing : thread = .closing → next = .publishing
  publishing : thread = .publishing → next = .done ∧ c'.published = true
  succeeded : thread = .qrSucceeded → c.permanent = true → c' = c

theorem transitionState_final {c : Connection} (h : c.permanent = true) (next : ConnectionState) :
    c.transitionState next = (c, false) := by
  simp [Connection.transitionState, h]

theorem markConnected_final {c : Connection} (h : c.permanent = true) :
    c.markConnected = (c, false) := by
  simp [Connection.markConnected, transitionState_final h]

section Transition

variable (c : Connection) {next : ConnectionState}

theorem transitionState_permanent (h : next ≠ .permanentlyDisconnected) :
    (c.transitionState next).1.permanent = c.permanent := by
  unfold Connection.transitionState
  split
  · contradiction
  · split <;> rfl

/-- A transition writes the flag and the state only. -/
theorem transitionState_frame (next : ConnectionState) :
    (c.transitionState next).1.closed = c.closed ∧
      (c.transitionState next).1.published = c.published ∧
      (c.transitionState next).1.permanentDisconnect = c.permanentDisconnect := by
  unfold Connection.transitionState
  split <;> split <;> exact ⟨rfl, rfl, rfl⟩

theorem markConnected_frame :
    c.markConnected.1.permanent = c.permanent ∧ c.markConnected.1.published = c.published ∧
      c.markConnected.1.permanentDisconnect = c.permanentDisconnect := by
  cases hpermanent : c.permanent with
  | true =>
    rw [markConnected_final hpermanent]
    exact ⟨hpermanent, rfl, rfl⟩
  | false =>
    rw [markConnected_alive hpermanent]
    unfold Connection.closeConnected
    split <;> exact ⟨hpermanent, rfl, rfl⟩

end Transition

@[simp] theorem resume_attempting (caller : Caller) (result : Except ConnectError Unit) :
    (caller.resume result).attempting = false := by
  cases caller <;> cases result <;> rfl

@[simp] theorem attempting_done : Thread.done.attempting = false := rfl

@[simp] theorem attempting_returned (result : Except ConnectError Unit) :
    (Thread.returned result).attempting = false := rfl

section Advance

variable {c c' : Connection} {thread next : Thread} {choice : Choice} {spawned : Option Thread}

theorem ne_of_special (h : thread.special = false) :
    thread ≠ .closing ∧ thread ≠ .publishing ∧ thread ≠ .qrSucceeded := by
  refine ⟨?_, ?_, ?_⟩ <;>
    · intro heq
      subst heq
      cases h

/-- A step without a transition, of a thread that is not the winner's. -/
theorem advanced_of_same (hflags : c'.permanent = c.permanent ∧ c'.state = c.state ∧
      c'.closed = c.closed ∧ c'.published = c.published)
    (hbuffer : c'.permanentDisconnect = true → c.permanentDisconnect = true)
    (hattempts : c.permanent = true → next.attempting = true → thread.attempting = true)
    (hspawned : ∀ new, spawned = some new → new.attempting = false)
    (hthread : thread.special = false) : thread.Advanced c c' next spawned where
  permanent := hflags.1
  final _ := ⟨hflags.2.1, hflags.2.2.1⟩
  attempts := hattempts
  spawned := hspawned
  published := .inl ⟨hflags.2.2.2, hbuffer⟩
  closing h := absurd h (ne_of_special hthread).1
  publishing h := absurd h (ne_of_special hthread).2.1
  succeeded h := absurd h (ne_of_special hthread).2.2

/-- A step that is a transition. -/
theorem advanced_of_transition {state : ConnectionState} {ok : Bool}
    (hmove : c.transitionState state = (c', ok)) (hstate : state ≠ .permanentlyDisconnected)
    (hattempts : ok = false → next.attempting = false)
    (hthread : thread.special = false) : thread.Advanced c c' next none := by
  have hpermanent := transitionState_permanent c hstate
  have hframe := transitionState_frame c state
  have hne := ne_of_special hthread
  rw [hmove] at hpermanent hframe
  refine ⟨hpermanent, fun h => ?_, fun h hnext => ?_, nofun,
    .inl ⟨hframe.2.1, fun h => hframe.2.2 ▸ h⟩,
    fun h => absurd h hne.1, fun h => absurd h hne.2.1, fun h => absurd h hne.2.2⟩
  · rw [transitionState_final h] at hmove
    cases hmove
    exact ⟨rfl, rfl⟩
  · rw [transitionState_final h] at hmove
    cases hmove
    rw [hattempts rfl] at hnext
    cases hnext

/-- A branch that is a transition, one that reads only, and the five others. -/
theorem advanced (h : thread.advance c choice = some (c', next, spawned)) :
    thread.Advanced c c' next spawned := by
  unfold Thread.advance at h
  split at h
  all_goals first
    | (cases h; done)
    | (cases h
       exact advanced_of_transition (Prod.eta _).symm (by decide) (fun _ => by simp) rfl)
    | (split at h
       cases h
       exact advanced_of_transition ‹_› (by decide) (fun hlost => by simp [hlost]) rfl)
    | (repeat' split at h
       all_goals first
         | (cases h; done)
         | (cases h
            refine advanced_of_same ⟨rfl, rfl, rfl, rfl⟩ id ?_ nofun rfl
            intro hpermanent hnext
            first | contradiction | rfl | simp at hnext))
    | skip
  · -- `spawning`
    cases h
    exact advanced_of_same ⟨rfl, rfl, rfl, rfl⟩ id nofun (fun _ hnew => by cases hnew; rfl) rfl
  · -- `resetting`
    cases h
    exact advanced_of_same ⟨rfl, rfl, rfl, rfl⟩ id (fun _ _ => rfl) nofun rfl
  · -- `closing`
    cases h
    exact ⟨rfl, fun _ => ⟨rfl, rfl⟩, nofun, nofun, .inl ⟨rfl, id⟩, fun _ => rfl, nofun, nofun⟩
  · -- `publishing`
    split at h
    · next hpublished =>
      cases h
      exact ⟨rfl, fun _ => ⟨rfl, rfl⟩, nofun, nofun, .inl ⟨rfl, id⟩, nofun,
        fun _ => ⟨rfl, hpublished⟩, nofun⟩
    · next hpublished =>
      cases h
      exact ⟨rfl, fun _ => ⟨rfl, rfl⟩, nofun, nofun,
        .inr ⟨rfl, by simpa using hpublished, rfl, rfl⟩, nofun, fun _ => ⟨rfl, rfl⟩, nofun⟩
  · -- `qrDraining`
    split at h <;> cases h
    · exact advanced_of_same ⟨rfl, rfl, rfl, rfl⟩ nofun nofun nofun rfl
    · exact advanced_of_same ⟨rfl, rfl, rfl, rfl⟩ id nofun nofun rfl
  · -- `qrSucceeded`
    have hframe := markConnected_frame c
    split at h
    next c₁ ok hmark =>
    rw [hmark] at hframe
    cases h
    have hfinal : c.permanent = true → c' = c := fun hpermanent => by
      rw [markConnected_final hpermanent] at hmark
      cases hmark
      rfl
    exact ⟨hframe.1, fun h => hfinal h ▸ ⟨rfl, rfl⟩, nofun, nofun,
      .inl ⟨hframe.2.1, fun h => hframe.2.2 ▸ h⟩, nofun, nofun, fun _ => hfinal⟩

end Advance

/-! ## One step of the system -/

/-- Thread `i` is in an attempt. -/
def System.attempts (s : System) (i : Nat) : Bool := s.threads[i]?.any Thread.attempting

@[simp] theorem wake_attempting (c : Connection) (thread : Thread) :
    (thread.wake c).attempting = thread.attempting := by
  unfold Thread.wake
  split
  · split
    · rfl
    · split <;> rfl
  · rfl

/-- A step of a thread, from its place in the list. -/
theorem step_thread_cases {s t : System} {i : Nat} {choice : Choice}
    (hstep : s.Step (.thread i choice) t) :
    ∃ thread c next spawned, s.threads[i]? = some thread ∧
      thread.advance s.conn choice = some (c, next, spawned) ∧
      t = .settle c (s.threads.set i next ++ spawned.toList) := by
  unfold System.Step at hstep
  simp only [System.step] at hstep
  split at hstep
  · cases hstep
  · next thread hthread =>
    split at hstep
    · cases hstep
    · next c next spawned hadvance =>
      cases hstep
      exact ⟨thread, c, next, spawned, hthread, hadvance, rfl⟩

/-- The handler of a permanent disconnect, with the thread of the winner. -/
theorem step_permanent {s t : System} (hstep : s.Step .permanentDisconnect t) :
    t = .settle (s.conn.transitionState .permanentlyDisconnected).1
      (s.threads ++ if s.wins .permanentDisconnect then [.closing] else []) :=
  (Option.some.inj hstep).symm

/-- A thread of the list after a change of the connection. -/
theorem settle_getElem? {c : Connection} {threads added : List Thread} {i : Nat} {thread : Thread}
    (hi : threads[i]? = some thread) :
    (System.settle c (threads ++ added)).threads[i]? = some (thread.wake c) := by
  have hlt : i < threads.length := (List.getElem?_eq_some_iff.mp hi).1
  show ((threads ++ added).map (Thread.wake c))[i]? = _
  rw [List.getElem?_map, List.getElem?_append_left hlt, hi]
  rfl

/-- A step leaves a thread where it stands, but for its wake, or is its own. -/
theorem thread_step {s t : System} {e : Event} {i : Nat} {thread : Thread} (hstep : s.Step e t)
    (hi : s.threads[i]? = some thread) :
    t.threads[i]? = some thread ∨ t.threads[i]? = some (thread.wake t.conn) ∨
      ∃ choice next spawned, e = .thread i choice ∧
        thread.advance s.conn choice = some (t.conn, next, spawned) ∧
        t.threads[i]? = some (next.wake t.conn) := by
  have hsettle : ∀ c, (System.settle c s.threads).threads[i]? = some (thread.wake c) := by
    intro c
    have hadded : (System.settle c (s.threads ++ [])).threads[i]? = some (thread.wake c) :=
      settle_getElem? hi
    simpa using hadded
  cases e with
  | connected =>
    cases hstep
    exact .inr (.inl (hsettle _))
  | disconnected =>
    cases hstep
    exact .inr (.inl (settle_getElem? hi))
  | streamError =>
    cases hstep
    exact .inr (.inl (settle_getElem? hi))
  | permanentDisconnect =>
    rw [step_permanent hstep]
    exact .inr (.inl (settle_getElem? hi))
  | stop =>
    cases hstep
    exact .inr (.inl (hsettle _))
  | supervise =>
    cases hstep
    exact .inl hi
  | thread j choice =>
    obtain ⟨thread', c, next, spawned, hj, hadvance, rfl⟩ := step_thread_cases hstep
    have hlt : i < s.threads.length := (List.getElem?_eq_some_iff.mp hi).1
    by_cases hij : j = i
    · subst hij
      obtain rfl := Option.some.inj (hi.symm.trans hj)
      exact .inr (.inr ⟨choice, next, spawned, rfl, hadvance,
        settle_getElem? (List.getElem?_set_self hlt)⟩)
    · exact .inr (.inl (settle_getElem? ((List.getElem?_set_ne hij).trans hi)))

/-- An attempt after a change of the connection is one of the threads. -/
theorem settle_attempts {c : Connection} {threads : List Thread} {i : Nat} :
    (System.settle c threads).attempts i = threads[i]?.any Thread.attempting := by
  unfold System.attempts System.settle
  rw [List.getElem?_map]
  cases threads[i]? <;> simp

/-- New threads that attempt nothing add no attempt. -/
theorem attempts_append {threads added : List Thread} {i : Nat}
    (hadded : ∀ thread ∈ added, thread.attempting = false)
    (h : (threads ++ added)[i]?.any Thread.attempting = true) :
    threads[i]?.any Thread.attempting = true := by
  by_cases hi : i < threads.length
  · rwa [List.getElem?_append_left hi] at h
  · rw [List.getElem?_append_right (by omega)] at h
    cases hnew : added[i - threads.length]? with
    | none => simp [hnew] at h
    | some thread =>
      rw [hnew, Option.any_some, hadded thread (List.mem_of_getElem? hnew)] at h
      cases h

/-- What a step of a system with `permanent` set leaves as it is. -/
structure System.Keeps (s t : System) : Prop where
  permanent : t.conn.permanent = true
  state : t.conn.state = s.conn.state
  closed : t.conn.closed = s.conn.closed
  attempts : ∀ i, t.attempts i = true → s.attempts i = true

theorem final_lose {s : System} (h : s.conn.permanent = true) : s.Keeps s.lose := by
  have hlose : s.lose = .settle s.conn (s.threads ++ []) := by
    unfold System.lose
    rw [transitionState_final h]
    rfl
  rw [hlose, List.append_nil]
  refine ⟨h, rfl, rfl, fun i hi => ?_⟩
  rwa [settle_attempts] at hi

/-- The step lemma. -/
theorem final_step {s t : System} {e : Event} (h : s.conn.permanent = true) (hstep : s.Step e t) :
    s.Keeps t := by
  have hsettle : ∀ {c : Connection}, c.permanent = true → c.state = s.conn.state →
      c.closed = s.conn.closed → s.Keeps (.settle c s.threads) := by
    intro c hpermanent hstate hclosed
    refine ⟨hpermanent, hstate, hclosed, fun i hi => ?_⟩
    rwa [settle_attempts] at hi
  cases e with
  | connected =>
    cases hstep
    rw [markConnected_final h]
    exact hsettle h rfl rfl
  | disconnected =>
    cases hstep
    exact final_lose h
  | streamError =>
    cases hstep
    exact final_lose h
  | permanentDisconnect =>
    have hlost : s.wins .permanentDisconnect = false := by
      simp [System.wins, transitionState_final h]
    rw [step_permanent hstep, hlost, transitionState_final h]
    simpa using hsettle h rfl rfl
  | stop =>
    cases hstep
    exact hsettle h rfl rfl
  | supervise =>
    cases hstep
    exact ⟨h, rfl, rfl, fun _ hi => hi⟩
  | thread i choice =>
    obtain ⟨thread, c, next, spawned, hthread, hadvance, rfl⟩ := step_thread_cases hstep
    have hadvanced := advanced hadvance
    obtain ⟨hstate, hclosed⟩ := hadvanced.final h
    refine ⟨hadvanced.permanent.trans h, hstate, hclosed, fun j hj => ?_⟩
    rw [settle_attempts] at hj
    have hset := attempts_append (fun new hnew =>
      hadvanced.spawned new (Option.mem_toList.mp hnew)) hj
    unfold System.attempts
    by_cases hij : i = j
    · subst hij
      have hlt : i < s.threads.length := (List.getElem?_eq_some_iff.mp hthread).1
      rw [List.getElem?_set_self hlt, Option.any_some] at hset
      rw [hthread, Option.any_some]
      exact hadvanced.attempts h hset
    · rwa [List.getElem?_set_ne hij] at hset

/-- The run lemma. -/
theorem final_run {s t : System} {es : List Event} (h : s.conn.permanent = true)
    (run : Exec System.Step s es t) : s.Keeps t := by
  induction run with
  | nil => exact ⟨h, rfl, rfl, fun _ hi => hi⟩
  | snoc _ last ih =>
    have hlast := final_step ih.permanent last
    exact ⟨hlast.permanent, hlast.state.trans ih.state, hlast.closed.trans ih.closed,
      fun i hi => ih.attempts i (hlast.attempts i hi)⟩

/-! ## The winner and the terminal event -/

/-- What the flags say about the run so far. -/
structure System.Counted (s₀ : System) (es : List Event) (s : System) : Prop where
  state : s.conn.permanent = true → s.conn.state = .permanentlyDisconnected
  wins : tally System.step System.wins s₀ es = s.conn.permanent.toNat
  published : tally System.step System.publishes s₀ es = s.conn.published.toNat
  buffer : s.conn.permanentDisconnect = true → s.conn.published = true

/-- What a step does to the flags: the winner sets one, and its thread the other. -/
structure System.Flags (s : System) (e : Event) (t : System) : Prop where
  permanent : t.conn.permanent.toNat = s.conn.permanent.toNat + (s.wins e).toNat
  state : t.conn.permanent = true → s.conn.permanent = false →
    t.conn.state = .permanentlyDisconnected
  published : (t.conn.published = s.conn.published ∧
      (t.conn.permanentDisconnect = true → s.conn.permanentDisconnect = true)) ∨
    (s.conn.published = false ∧ t.conn.published = true ∧ t.conn.permanentDisconnect = true)

theorem flags_of_same {s : System} {e : Event} {c : Connection} {threads : List Thread}
    (hwins : s.wins e = false) (hpermanent : c.permanent = s.conn.permanent)
    (hpublished : c.published = s.conn.published)
    (hbuffer : c.permanentDisconnect = true → s.conn.permanentDisconnect = true) :
    s.Flags e ⟨c, threads⟩ where
  permanent := by simp [hwins, hpermanent]
  state ht hs := by
    rw [show (⟨c, threads⟩ : System).conn.permanent = _ from hpermanent, hs] at ht
    cases ht
  published := .inl ⟨hpublished, hbuffer⟩

theorem flags_lose {s : System} {e : Event} (hwins : s.wins e = false) : s.Flags e s.lose := by
  have hframe := transitionState_frame s.conn .disconnected
  have hstate : ConnectionState.disconnected ≠ .permanentlyDisconnected := by decide
  have hpermanent := transitionState_permanent s.conn hstate
  exact flags_of_same hwins hpermanent hframe.2.1 fun h => hframe.2.2 ▸ h

theorem flags_step {s t : System} {e : Event} (hstep : s.Step e t) : s.Flags e t := by
  cases e with
  | connected =>
    cases hstep
    have hframe := markConnected_frame s.conn
    exact flags_of_same rfl hframe.1 hframe.2.1 fun h => hframe.2.2 ▸ h
  | disconnected =>
    cases hstep
    exact flags_lose rfl
  | streamError =>
    cases hstep
    exact flags_lose rfl
  | permanentDisconnect =>
    have hframe := transitionState_frame s.conn .permanentlyDisconnected
    rw [step_permanent hstep]
    refine ⟨?_, fun _ hs => ?_, .inl ⟨hframe.2.1, fun h => hframe.2.2 ▸ h⟩⟩
    · cases hs : s.conn.permanent <;>
        simp [System.settle, System.wins, Connection.transitionState, hs]
    · simp [System.settle, Connection.transitionState, hs]
  | stop =>
    cases hstep
    exact flags_of_same rfl rfl rfl id
  | supervise =>
    cases hstep
    exact flags_of_same rfl rfl rfl fun h => by cases h
  | thread i choice =>
    obtain ⟨thread, c, next, spawned, -, hadvance, rfl⟩ := step_thread_cases hstep
    have hadvanced := advanced hadvance
    rcases hadvanced.published with ⟨hpublished, hbuffer⟩ | ⟨-, hbefore, hafter, hbuffer⟩
    · exact flags_of_same rfl hadvanced.permanent hpublished hbuffer
    · refine ⟨by simp [System.settle, System.wins, hadvanced.permanent], fun ht hs => ?_,
        .inr ⟨hbefore, hafter, hbuffer⟩⟩
      rw [show (System.settle c _).conn.permanent = _ from hadvanced.permanent, hs] at ht
      cases ht

theorem counted_run {paired : Bool} {es : List Event} {s : System}
    (run : Exec System.Step (System.initial paired) es s) :
    System.Counted (System.initial paired) es s := by
  induction run with
  | nil => exact ⟨nofun, rfl, rfl, nofun⟩
  | @snoc es s t e run last ih =>
    have hflags := flags_step last
    have hpublishes : s.publishes e =
        (!s.conn.permanentDisconnect && t.conn.permanentDisconnect) := by
      unfold System.publishes
      rw [show s.step e = some t from last]
      rfl
    refine ⟨fun ht => ?_, ?_, ?_, fun ht => ?_⟩
    · cases hs : s.conn.permanent with
      | false => exact hflags.state ht hs
      | true => exact (final_step hs last).state.trans (ih.state hs)
    · rw [tally_snoc run last, ih.wins, hflags.permanent]
    · rw [tally_snoc run last, ih.published, hpublishes]
      rcases hflags.published with ⟨hsame, hbuffer⟩ | ⟨hbefore, hafter, hsent⟩
      · cases hs : s.conn.permanentDisconnect <;> cases ht : t.conn.permanentDisconnect <;>
          simp_all
      · have hempty : s.conn.permanentDisconnect = false := by
          by_contra hbuffered
          rw [ih.buffer (by simpa using hbuffered)] at hbefore
          cases hbefore
        simp [hbefore, hafter, hsent, hempty]
    · rcases hflags.published with ⟨hsame, hbuffer⟩ | ⟨-, hafter, -⟩
      · exact hsame.trans (ih.buffer (hbuffer ht))
      · exact hafter

/-! ## The winner's thread -/

/-- Thread `i` has still to publish, or the terminal event is out. -/
def System.Publishing (s : System) (i : Nat) : Prop :=
  s.threads[i]? = some .closing ∨ s.threads[i]? = some .publishing ∨
    (s.threads[i]? = some .done ∧ s.conn.published = true)

/-- Once it is published, the event stays so. -/
theorem published_step {s t : System} {e : Event} (h : s.conn.published = true)
    (hstep : s.Step e t) : t.conn.published = true := by
  rcases (flags_step hstep).published with ⟨hsame, -⟩ | ⟨-, hafter, -⟩
  · exact hsame.trans h
  · exact hafter

theorem publishing_step {s t : System} {e : Event} {i : Nat} (h : s.Publishing i)
    (hstep : s.Step e t) : t.Publishing i := by
  rcases h with hi | hi | ⟨hi, hpublished⟩
  · rcases thread_step hstep hi with hsame | hsame | ⟨_, next, _, -, hadvance, hnext⟩
    · exact .inl hsame
    · exact .inl hsame
    · obtain rfl := (advanced hadvance).closing rfl
      exact .inr (.inl hnext)
  · rcases thread_step hstep hi with hsame | hsame | ⟨_, next, _, -, hadvance, hnext⟩
    · exact .inr (.inl hsame)
    · exact .inr (.inl hsame)
    · obtain ⟨rfl, hpublished⟩ := (advanced hadvance).publishing rfl
      exact .inr (.inr ⟨hnext, hpublished⟩)
  · have hafter := published_step hpublished hstep
    rcases thread_step hstep hi with hsame | hsame | ⟨choice, _, _, -, hadvance, -⟩
    · exact .inr (.inr ⟨hsame, hafter⟩)
    · exact .inr (.inr ⟨hsame, hafter⟩)
    · cases choice <;> cases hadvance

/-- The next step of thread `i` is open, and takes it to `next`. -/
def System.Goes (s : System) (i : Nat) (next : Thread) : Prop :=
  ∃ t, s.Step (.thread i .go) t ∧ t.threads[i]? = some next

theorem goes_of_advance {s : System} {i : Nat} {thread next : Thread} {c : Connection}
    (hi : s.threads[i]? = some thread) (hadvance : thread.advance s.conn .go = some (c, next, none)) :
    s.Goes i (next.wake c) := by
  have hlt : i < s.threads.length := (List.getElem?_eq_some_iff.mp hi).1
  refine ⟨.settle c (s.threads.set i next ++ []), ?_, settle_getElem? (List.getElem?_set_self hlt)⟩
  show s.step (.thread i .go) = _
  simp only [System.step, hi, hadvance]
  rfl

/-! ## From the transition on -/

/-- A permanent disconnect of thread `winner`, in a run `es` that led to `s`. -/
structure System.Terminal (s₀ : System) (es : List Event) (s : System) (winner : Nat) : Prop where
  /-- The state stays. -/
  state : ∀ fs t, Exec System.Step s fs t → t.conn.state = .permanentlyDisconnected
  /-- No call of `markConnected` has an effect. -/
  connected : ∀ fs t e u, Exec System.Step s fs t → t.marksConnected e → t.Step e u →
    u.conn = t.conn
  /-- A reconnect timer that is still pending starts no attempt. -/
  timers : ∀ fs t i gen delay gs u, Exec System.Step s fs t →
    t.threads[i]? = some (.sleeping gen delay) → Exec System.Step t gs u → u.attempts i = false
  /-- A goroutine that starts from now on makes no attempt. -/
  goroutines : ∀ fs t i, Exec System.Step s fs t → s.threads.length ≤ i → t.attempts i = false
  /-- One call has returned true. -/
  wins : ∀ fs t, Exec System.Step s fs t → tally System.step System.wins s₀ (es ++ fs) = 1
  /-- One terminal event is published, by the time that this call returns. -/
  publishes : ∀ fs t, Exec System.Step s fs t →
    tally System.step System.publishes s₀ (es ++ fs) ≤ 1 ∧
      (t.threads[winner]? = some .done →
        tally System.step System.publishes s₀ (es ++ fs) = 1)
  /-- The call does return: its two steps, closing and publishing, are open until they are taken. -/
  winner : ∀ fs t, Exec System.Step s fs t →
    (t.threads[winner]? = some .closing ∧ t.Goes winner .publishing) ∨
      (t.threads[winner]? = some .publishing ∧ t.Goes winner .done) ∨
        t.threads[winner]? = some .done

/-- A call of `markConnected` after the transition. -/
theorem marksConnected_final {s t : System} {e : Event} (h : s.conn.permanent = true)
    (hmarks : s.marksConnected e) (hstep : s.Step e t) : t.conn = s.conn := by
  cases e with
  | connected =>
    cases hstep
    rw [markConnected_final h]
    rfl
  | thread i choice =>
    obtain ⟨thread, c, next, spawned, hthread, hadvance, rfl⟩ := step_thread_cases hstep
    obtain rfl := Option.some.inj (hmarks.symm.trans hthread)
    exact (advanced hadvance).succeeded rfl h
  | disconnected => cases hmarks
  | streamError => cases hmarks
  | permanentDisconnect => cases hmarks
  | stop => cases hmarks
  | supervise => cases hmarks

/-- Once the handler of a permanent disconnect has committed, nothing undoes it. -/
theorem permanent_absorbing {paired : Bool} {es : List Event} {s t : System}
    (run : Exec System.Step (System.initial paired) es s) (halive : s.conn.permanent = false)
    (hstep : s.Step .permanentDisconnect t) :
    System.Terminal (System.initial paired) (es ++ [.permanentDisconnect]) t s.threads.length := by
  have hrun := run.snoc hstep
  have hwins : s.wins .permanentDisconnect = true := by
    simp [System.wins, Connection.transitionState, halive]
  have hpermanent : t.conn.permanent = true := by
    rw [step_permanent hstep]
    simp [System.settle, Connection.transitionState, halive]
  have hclosing : t.Publishing s.threads.length := by
    rw [step_permanent hstep, hwins]
    exact .inl (by simp [System.settle, Thread.wake])
  have hcounted : ∀ fs u, Exec System.Step t fs u →
      System.Counted (System.initial paired) (es ++ [.permanentDisconnect] ++ fs) u :=
    fun fs u hfs => counted_run (hrun.append hfs)
  have hpublishing : ∀ fs u, Exec System.Step t fs u → u.Publishing s.threads.length :=
    fun fs u hfs => hfs.invariant (P := fun u => System.Publishing u s.threads.length) hclosing
      fun _ _ _ h hlast => publishing_step h hlast
  refine ⟨fun fs u hfs => ?_, fun fs u e v hfs hmarks hlast => ?_,
    fun fs u i gen delay gs v hfs hi hgs => ?_, fun fs u i hfs hi => ?_, fun fs u hfs => ?_,
    fun fs u hfs => ?_, fun fs u hfs => ?_⟩
  · exact (hcounted fs u hfs).state (final_run hpermanent hfs).permanent
  · exact marksConnected_final (final_run hpermanent hfs).permanent hmarks hlast
  · by_contra hattempts
    have hbefore := (final_run (final_run hpermanent hfs).permanent hgs).attempts i
      (by simpa using hattempts)
    rw [System.attempts, hi] at hbefore
    cases hbefore
  · by_contra hattempts
    have hbefore := (final_run hpermanent hfs).attempts i (by simpa using hattempts)
    rw [System.attempts, List.getElem?_eq_none hi] at hbefore
    cases hbefore
  · rw [(hcounted fs u hfs).wins, (final_run hpermanent hfs).permanent]
    rfl
  · rw [(hcounted fs u hfs).published]
    refine ⟨Bool.toNat_le _, fun hdone => ?_⟩
    rcases hpublishing fs u hfs with h | h | ⟨-, hpublished⟩
    · rw [hdone] at h
      cases h
    · rw [hdone] at h
      cases h
    · rw [hpublished]
      rfl
  · rcases hpublishing fs u hfs with h | h | ⟨h, -⟩
    · exact .inl ⟨h, goes_of_advance h rfl⟩
    · exact .inr (.inl ⟨h, goes_of_advance h rfl⟩)
    · exact .inr (.inr h)

/-- A connection is lost, and a goroutine sleeps before the next attempt. -/
def sampleLoss : List Event :=
  sampleConnect ++ [.connected, .thread 0 .go, .disconnected, .thread 1 .go, .thread 1 .go]

/-- The device is logged out while the goroutine sleeps, and the winner runs on to the event. -/
theorem permanent_absorbing_of_sampleLoss :
    ∃ s t u, (System.initial true).run sampleLoss = some s ∧ s.step .permanentDisconnect = some t ∧
      t.run [.thread 3 .go, .thread 3 .go] = some u ∧ u.conn.permanentDisconnect = true ∧
      tally System.step System.publishes (System.initial true)
        (sampleLoss ++ [.permanentDisconnect] ++ [.thread 3 .go, .thread 3 .go]) = 1 ∧
      ∀ es v, Exec System.Step t es v →
        v.conn.state = .permanentlyDisconnected ∧ v.attempts 2 = false ∧
          (v.threads[3]? = some .done ∨ v.Goes 3 .publishing ∨ v.Goes 3 .done) := by
  have hrun : Exec System.Step (System.initial true) sampleLoss _ := exec_of_run rfl
  have hterminal := permanent_absorbing hrun rfl rfl
  have hpublishes := hterminal.publishes [.thread 3 .go, .thread 3 .go] _ (exec_of_run rfl)
  refine ⟨_, _, _, rfl, rfl, rfl, rfl, hpublishes.2 rfl, fun es v run => ?_⟩
  refine ⟨hterminal.state es v run, hterminal.timers [] _ 2 2 1 es v .nil rfl run, ?_⟩
  rcases hterminal.winner es v run with ⟨-, hgoes⟩ | ⟨-, hgoes⟩ | hdone
  · exact .inr (.inl hgoes)
  · exact .inr (.inr hgoes)
  · exact .inl hdone

end WhatsAppMcp.Bridge.Manager
