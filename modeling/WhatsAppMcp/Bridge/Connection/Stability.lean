import WhatsAppMcp.Lib.Trace
import WhatsAppMcp.Bridge.Connection.Manager

/-!
# When a connected state lasts

Once `CONNECTED` is committed, the state should leave it only for a handler of
a disconnect, a stream error or a permanent disconnect, and no reconnect
goroutine should start otherwise.  The generation counter is meant to see to
it, but `scheduleReconnect` checks it once, after its timer.  Whatever is under
way then can still write the state, and so can a timer of the current
generation, since a connected event does not raise the generation.

* `Thread.quiet` is a thread that writes no state any more.  `calm_step`: a
  connected state with quiet threads only stays one.
* `unquiet_harmful`: any other thread has a schedule that breaks the state.
* `stable_iff_settled` puts the two together at the commit.
-/

namespace WhatsAppMcp.Bridge.Manager

open Trace

/-- The handlers of a loss. -/
def Event.loses : Event → Bool
  | .disconnected | .streamError | .permanentDisconnect => true
  | .connected | .stop | .supervise | .thread _ _ => false

/-- Until the handler of a loss runs, the state stays connected and no
goroutine starts. -/
def System.Stable (s : System) : Prop :=
  ∀ es t, Exec System.Step s es t → (∀ e ∈ es, e.loses = false) →
    t.conn.state = .connected ∧ t.threads.length = s.threads.length

/-- The thread writes no state and starts no goroutine, unless it writes
`CONNECTED`. -/
def Thread.quiet (c : Connection) : Thread → Bool
  | .sleeping gen _ => gen ≠ c.generation
  | .woken gen => gen ≠ c.generation
  | .received _ => true
  | .interrupted .connect => true
  | .failed .permanentDisconnect => true
  | .closing => true
  | .publishing => true
  | .qrClosed => true
  | .qrDraining => true
  | .qrSucceeded => true
  | .returned _ => true
  | .done => true
  | _ => false

/-- The thread is quiet once the connected channel is closed. -/
def Thread.settled (c : Connection) : Thread → Bool
  | .parked _ ch => ch = c.connectedCh
  | thread => thread.quiet c

/-- Nothing is under way but attempts that wait for the current channel. -/
def System.Settled (s : System) : Prop := ∀ thread ∈ s.threads, thread.settled s.conn = true

/-- The step commits `CONNECTED`. -/
structure System.Commits (s : System) (e : Event) (t : System) : Prop where
  step : s.Step e t
  alive : s.conn.permanent = false
  call : e = .connected ∨ ∃ i, e = .thread i .go ∧ s.threads[i]? = some .qrSucceeded

/-! ## The critical sections -/

theorem transitionState_alive {c : Connection} {next : ConnectionState}
    (halive : c.permanent = false) (hnext : next ≠ .permanentlyDisconnected) :
    c.transitionState next = ({ c with state := next }, true) := by
  simp [Connection.transitionState, halive, hnext]

theorem markConnected_alive {c : Connection} (halive : c.permanent = false) :
    c.markConnected =
      (({ c with state := .connected, retryCount := 0 } : Connection).closeConnected, true) := by
  have hnext : ConnectionState.connected ≠ .permanentlyDisconnected := by decide
  simp [Connection.markConnected, transitionState_alive halive hnext]

/-! ## Quiet threads -/

theorem wake_quiet {c c' : Connection} {thread : Thread} (h : thread.quiet c = true) :
    thread.wake c' = thread := by
  cases thread <;> first | rfl | cases h

theorem quiet_congr {c c' : Connection} {thread : Thread} (h : thread.quiet c = true)
    (hgen : c'.generation = c.generation) : thread.quiet c' = true := by
  cases thread <;> simp_all [Thread.quiet]

/-- A quiet thread stays quiet, and leaves a live connected state alone. -/
theorem quiet_advance {c c' : Connection} {thread thread' : Thread} {choice : Choice}
    {spawned : Option Thread} (h : thread.quiet c = true) (halive : c.permanent = false)
    (hstate : c.state = .connected)
    (hadvance : thread.advance c choice = some (c', thread', spawned)) :
    c'.state = .connected ∧ c'.permanent = false ∧ c'.generation = c.generation ∧
      thread'.quiet c' = true ∧ spawned = none := by
  cases thread <;> first | (cases h; done) | skip
  case sleeping gen delay =>
    cases choice <;> simp only [Thread.advance, reduceCtorEq] at hadvance
    case timer =>
      cases hadvance
      exact ⟨hstate, halive, rfl, h, rfl⟩
    case stop =>
      split at hadvance
      · cases hadvance
        exact ⟨hstate, halive, rfl, rfl, rfl⟩
      · cases hadvance
  case woken gen =>
    cases choice <;> simp only [Thread.advance, reduceCtorEq] at hadvance
    have hstale : ¬ c.generation = gen := by
      simp only [Thread.quiet, decide_eq_true_eq] at h
      omega
    cases hadvance
    exact ⟨hstate, halive, rfl, by simp [hstale, Thread.quiet], rfl⟩
  case received caller =>
    cases choice <;> simp only [Thread.advance, reduceCtorEq] at hadvance
    cases hadvance
    cases caller <;> simp [hstate, halive, Connection.orPermanent, Caller.resume, Thread.quiet]
  case interrupted caller =>
    cases choice <;> simp only [Thread.advance, reduceCtorEq] at hadvance
    cases hadvance
    cases caller
    · simp [hstate, halive, Caller.resume, Thread.quiet]
    · cases h
  case failed err =>
    cases choice <;> simp only [Thread.advance, reduceCtorEq] at hadvance
    cases hadvance
    cases err <;> first | (cases h; done) | simp [hstate, halive, Thread.quiet]
  case closing =>
    cases choice <;> simp only [Thread.advance, reduceCtorEq] at hadvance
    cases hadvance
    exact ⟨hstate, halive, rfl, rfl, rfl⟩
  case publishing =>
    cases choice <;> simp only [Thread.advance, reduceCtorEq] at hadvance
    cases hadvance
    split <;> exact ⟨hstate, halive, rfl, rfl, rfl⟩
  case qrClosed =>
    cases choice <;> simp only [Thread.advance, reduceCtorEq] at hadvance
    cases hadvance
    simp [hstate, halive, Thread.quiet]
  case qrDraining =>
    cases choice <;> simp only [Thread.advance, reduceCtorEq] at hadvance
    split at hadvance <;> cases hadvance <;> exact ⟨hstate, halive, rfl, rfl, rfl⟩
  case qrSucceeded =>
    cases choice <;> simp only [Thread.advance, reduceCtorEq] at hadvance
    rw [markConnected_alive halive] at hadvance
    cases hadvance
    simp [halive, Thread.quiet]
  case returned result => cases choice <;> cases hadvance
  case done => cases choice <;> cases hadvance

/-! ## A calm state lasts -/

/-- Connected, with quiet threads only. -/
structure System.Calm (s : System) : Prop where
  state : s.conn.state = .connected
  alive : s.conn.permanent = false
  quiet : ∀ thread ∈ s.threads, thread.quiet s.conn = true

/-- After a change of the connection that keeps the generation, quiet threads
are left as they were. -/
theorem settle_calm {c : Connection} {threads : List Thread} {gen : Connection}
    (hstate : c.state = .connected) (halive : c.permanent = false)
    (hgen : c.generation = gen.generation) (hquiet : ∀ thread ∈ threads, thread.quiet gen = true) :
    (System.settle c threads).Calm ∧ (System.settle c threads).threads.length = threads.length := by
  refine ⟨⟨hstate, halive, fun thread hthread => ?_⟩, by simp [System.settle]⟩
  obtain ⟨thread₀, hmem, rfl⟩ := List.mem_map.mp hthread
  rw [wake_quiet (hquiet thread₀ hmem)]
  exact quiet_congr (hquiet thread₀ hmem) hgen

/-- The step lemma: without the handler of a loss a calm state stays calm. -/
theorem calm_step {s t : System} {e : Event} (h : s.Calm) (hstep : s.Step e t)
    (hkeeps : e.loses = false) : t.Calm ∧ t.threads.length = s.threads.length := by
  unfold System.Step at hstep
  cases e with
  | connected =>
    cases hstep
    rw [markConnected_alive h.alive]
    exact settle_calm (by simp) (by simp [h.alive]) (by simp) h.quiet
  | disconnected => cases hkeeps
  | streamError => cases hkeeps
  | permanentDisconnect => cases hkeeps
  | stop =>
    cases hstep
    exact settle_calm h.state h.alive rfl h.quiet
  | supervise =>
    cases hstep
    exact ⟨⟨h.state, h.alive, fun thread hthread => quiet_congr (h.quiet thread hthread) rfl⟩, rfl⟩
  | thread i choice =>
    simp only [System.step] at hstep
    split at hstep
    · cases hstep
    · next thread hthread =>
      split at hstep
      · cases hstep
      · next c next spawned hadvance =>
        cases hstep
        have hmem : thread ∈ s.threads := List.mem_of_getElem? hthread
        obtain ⟨hstate, halive, hgen, hnext, rfl⟩ :=
          quiet_advance (h.quiet thread hmem) h.alive h.state hadvance
        have hquiet : ∀ th ∈ s.threads.set i next, th.quiet c = true := by
          intro th hth
          rcases List.mem_or_eq_of_mem_set hth with hold | rfl
          · exact quiet_congr (h.quiet th hold) hgen
          · exact hnext
        have hboth := settle_calm hstate halive rfl hquiet
        simpa using hboth

theorem calm_stable {s : System} (h : s.Calm) : s.Stable := by
  intro es t run hkeeps
  suffices t.Calm ∧ t.threads.length = s.threads.length from ⟨this.1.state, this.2⟩
  induction run with
  | nil => exact ⟨h, rfl⟩
  | snoc run last ih =>
    obtain ⟨hcalm, hlength⟩ := ih fun e he => hkeeps e (List.mem_append_left _ he)
    obtain ⟨hcalm', hlength'⟩ :=
      calm_step hcalm last (hkeeps _ (List.mem_append_right _ List.mem_cons_self))
    exact ⟨hcalm', hlength'.trans hlength⟩

/-! ## Any other thread breaks it -/

/-- Without the handler of a loss the system can leave the connected state or
start a goroutine. -/
def System.Regresses (s : System) : Prop :=
  ∃ es t, Exec System.Step s es t ∧ (∀ e ∈ es, e.loses = false) ∧
    ¬ (t.conn.state = .connected ∧ t.threads.length = s.threads.length)

/-- A system with this connection and this thread regresses. -/
def Thread.Harmful (c : Connection) (thread : Thread) : Prop :=
  ∀ (s : System) (i : Nat), s.conn = c → s.threads[i]? = some thread → s.Regresses

section Harmful

variable {c c' : Connection} {thread thread' : Thread} (choice : Choice)

theorem System.step_thread {s : System} {i : Nat} {spawned : Option Thread}
    (hthread : s.threads[i]? = some thread)
    (hadvance : thread.advance s.conn choice = some (c', thread', spawned)) :
    s.Step (.thread i choice) (.settle c' (s.threads.set i thread' ++ spawned.toList)) := by
  unfold System.Step
  simp [System.step, hthread, hadvance]

/-- The thread writes the state. -/
theorem harmful_of_write {spawned : Option Thread}
    (hadvance : thread.advance c choice = some (c', thread', spawned))
    (hstate : c'.state ≠ .connected) : thread.Harmful c := by
  intro s i hconn hthread
  subst hconn
  refine ⟨[.thread i choice], _, Exec.single (System.step_thread choice hthread hadvance), ?_, ?_⟩
  · simp [Event.loses]
  · exact fun h => hstate h.1

/-- The thread starts a goroutine. -/
theorem harmful_of_spawn {new : Thread}
    (hadvance : thread.advance c choice = some (c', thread', some new)) : thread.Harmful c := by
  intro s i hconn hthread
  subst hconn
  refine ⟨[.thread i choice], _, Exec.single (System.step_thread choice hthread hadvance), ?_, ?_⟩
  · simp [Event.loses]
  · simp [System.settle]

/-- The thread gets to where it is harmful. -/
theorem harmful_of_next (hadvance : thread.advance c choice = some (c', thread', none))
    (hwake : thread'.wake c' = thread') (hnext : thread'.Harmful c') : thread.Harmful c := by
  intro s i hconn hthread
  subst hconn
  have hstep := System.step_thread choice hthread hadvance
  have hi : i < s.threads.length := (List.getElem?_eq_some_iff.mp hthread).1
  have hthread' : (System.settle c' (s.threads.set i thread' ++ [])).threads[i]? = some thread' := by
    simp [System.settle, hi, hwake]
  obtain ⟨es, t, run, hkeeps, hbreaks⟩ := hnext _ i rfl hthread'
  refine ⟨[.thread i choice] ++ es, t, (Exec.single hstep).append run, ?_, ?_⟩
  · intro e he
    rcases List.mem_append.mp he with he | he
    · rw [List.mem_singleton.mp he]
      rfl
    · exact hkeeps e he
  · simpa [System.settle] using hbreaks

end Harmful

/-- The threads whose next step writes the state. -/
def Thread.writes : Thread → Bool
  | .starting | .retrying | .dialFailed _ | .timedOut _ | .connecting _ | .qrStarting => true
  | .qrAcquireFailed | .qrDialFailed | .qrCancelled | .qrStopping | .qrTimedOut | .qrErrored => true
  | _ => false

theorem harmful_writes {c : Connection} {thread : Thread} (halive : c.permanent = false)
    (hwrites : thread.writes = true) : thread.Harmful c := by
  have hlost : (c.transitionState .disconnected).1.state ≠ .connected := by
    simp [transitionState_alive halive]
  have hconnecting : (c.transitionState .connecting).1.state ≠ .connected := by
    simp [transitionState_alive halive]
  have hwaiting : (c.transitionState .qrWaiting).1.state ≠ .connected := by
    simp [transitionState_alive halive]
  cases thread <;> first
    | (cases hwrites; done)
    | exact harmful_of_write .go rfl hlost
    | exact harmful_of_write .go rfl hconnecting
    | exact harmful_of_write .go rfl hwaiting

/-- A thread that is not quiet has a schedule that breaks the state: an outer
call fails, a timer fires, or the code goes on. -/
theorem unquiet_harmful {c : Connection} {thread : Thread} (halive : c.permanent = false)
    (hquiet : thread.quiet c = false) : thread.Harmful c := by
  have hwrites : ∀ {c₁ : Connection} {th : Thread}, c₁.permanent = false → th.writes = true →
      th.Harmful c₁ := fun h₁ hw => harmful_writes h₁ hw
  -- `reconnect` up to the failure of `wa.Connect`
  have hdialing : ∀ {c₁ : Connection} caller ch, c₁.permanent = false →
      (Thread.dialing caller ch).Harmful c₁ := fun caller ch h₁ =>
    harmful_of_next .fail rfl rfl (hwrites h₁ rfl)
  have hresetting : ∀ {c₁ : Connection} caller, c₁.permanent = false →
      (Thread.resetting caller).Harmful c₁ := fun caller h₁ =>
    harmful_of_next .go rfl rfl (hdialing caller _ h₁)
  have hreconnecting : ∀ {c₁ : Connection} caller, c₁.permanent = false →
      (Thread.reconnecting caller).Harmful c₁ := fun caller h₁ =>
    harmful_of_next .go (by simp only [Thread.advance, h₁]; rfl) rfl (hresetting caller h₁)
  -- `scheduleReconnect` and its goroutine
  have hspawning : ∀ {c₁ : Connection}, Thread.spawning.Harmful c₁ :=
    harmful_of_spawn .go rfl
  have hchecked : Thread.generationChecked.Harmful c :=
    harmful_of_next .go (by simp only [Thread.advance, halive]; rfl) rfl (hwrites halive rfl)
  have hwoken : (Thread.woken c.generation).Harmful c :=
    harmful_of_next .go (by simp only [Thread.advance, if_true]) rfl hchecked
  have hretrying : Thread.retrying.Harmful c := hwrites halive rfl
  have hfailed : ∀ err, err ≠ .permanentDisconnect → (Thread.failed err).Harmful c := by
    intro err herr
    refine harmful_of_next .go ?_ rfl hretrying
    simp [Thread.advance, halive, herr]
  cases thread <;> first
    | (cases hquiet; done)
    | exact hwrites halive rfl
    | exact hspawning
    | exact hchecked
    | exact hdialing _ _ halive
    | exact hresetting _ halive
    | exact hreconnecting _ halive
    | skip
  case scheduling =>
    exact harmful_of_next .go (by simp only [Thread.advance, halive]; rfl) rfl hspawning
  case sleeping gen delay =>
    have hgen : gen = c.generation := by simpa [Thread.quiet] using hquiet
    rw [hgen]
    exact harmful_of_next .timer rfl rfl hwoken
  case woken gen =>
    have hgen : gen = c.generation := by simpa [Thread.quiet] using hquiet
    rw [hgen]
    exact hwoken
  case failed err =>
    refine hfailed err fun herr => ?_
    rw [herr] at hquiet
    cases hquiet
  case selecting caller ch => exact harmful_of_next .timer rfl rfl (hwrites halive rfl)
  case parked caller ch => exact harmful_of_next .timer rfl rfl (hwrites halive rfl)
  case interrupted caller =>
    cases caller
    · cases hquiet
    · refine harmful_of_next .go ?_ rfl (hfailed .canceled (by decide))
      simp only [Thread.advance, Connection.orPermanent, halive]
      rfl
  case counting paired =>
    cases paired
    · exact harmful_of_next .go rfl rfl (hwrites halive rfl)
    · exact harmful_of_next .go rfl rfl (hreconnecting .connect halive)
  case qrAcquiring => exact harmful_of_next .fail rfl rfl (hwrites halive rfl)
  case qrDialing => exact harmful_of_next .fail rfl rfl (hwrites halive rfl)
  case qrSelecting => exact harmful_of_next .cancel rfl rfl (hwrites halive rfl)
  case qrInterrupted =>
    exact harmful_of_next .go (by simp only [Thread.advance, halive]; rfl) rfl (hwrites halive rfl)

/-! ## At the commit -/

/-- No parked thread has a closed channel. -/
def System.Awake (s : System) : Prop := ∀ thread ∈ s.threads, thread.wake s.conn = thread

theorem wake_wake (c : Connection) (thread : Thread) :
    (thread.wake c).wake c = thread.wake c := by
  cases thread with
  | parked caller ch =>
    by_cases hclosed : ch ∈ c.closed <;> by_cases hstopped : c.stopped = true <;>
      simp [Thread.wake, hclosed, hstopped]
  | _ => rfl

theorem settle_awake (c : Connection) (threads : List Thread) :
    (System.settle c threads).Awake := by
  intro thread hthread
  obtain ⟨thread₀, -, rfl⟩ := List.mem_map.mp hthread
  exact wake_wake c thread₀

theorem awake_step {s t : System} {e : Event} (h : s.Awake) (hstep : s.Step e t) : t.Awake := by
  unfold System.Step at hstep
  cases e with
  | connected =>
    cases hstep
    exact settle_awake _ _
  | disconnected =>
    cases hstep
    exact settle_awake _ _
  | streamError =>
    cases hstep
    exact settle_awake _ _
  | permanentDisconnect =>
    cases hstep
    exact settle_awake _ _
  | stop =>
    cases hstep
    exact settle_awake _ _
  | supervise =>
    cases hstep
    intro thread hthread
    have hwake := h thread hthread
    cases thread <;> first | rfl | exact hwake
  | thread i choice =>
    simp only [System.step] at hstep
    split at hstep
    · cases hstep
    · split at hstep
      · cases hstep
      · cases hstep
        exact settle_awake _ _

theorem awake_run {paired : Bool} {es : List Event} {s : System}
    (run : Exec System.Step (System.initial paired) es s) : s.Awake := by
  apply run.invariant (P := System.Awake) _ fun _ _ _ h hstep => awake_step h hstep
  simp [System.Awake, System.initial, Thread.wake]

/-- What the commit makes of the connection. -/
theorem System.Commits.conn {s t : System} {e : Event} (commit : s.Commits e t) :
    t.conn = s.conn.markConnected.1 := by
  have hstep := commit.step
  unfold System.Step at hstep
  rcases commit.call with rfl | ⟨i, rfl, hthread⟩
  · cases hstep
    rfl
  · simp only [System.step, hthread, Thread.advance] at hstep
    cases hstep
    rfl

/-- The commit makes a thread quiet exactly when it was settled. -/
theorem quiet_wake {c : Connection} {thread : Thread} (halive : c.permanent = false)
    (hawake : thread.wake c = thread) :
    (thread.wake c.markConnected.1).quiet c.markConnected.1 = thread.settled c := by
  rw [markConnected_alive halive]
  cases thread <;> try (simp [Thread.wake, Thread.quiet, Thread.settled]; done)
  case parked caller ch =>
    have hopen : ch ∉ c.closed ∧ c.stopped = false := by
      simp only [Thread.wake] at hawake
      split at hawake
      · cases hawake
      · split at hawake
        · cases hawake
        · next hclosed hstopped => exact ⟨hclosed, by simpa using hstopped⟩
    by_cases hch : ch = c.connectedCh <;>
      simp [Thread.wake, Thread.settled, Thread.quiet, hch, hopen]

/-- The state after the commit is calm exactly when the state before it was
settled. -/
theorem commit_calm {s t : System} {e : Event} (hawake : s.Awake) (commit : s.Commits e t) :
    t.Calm ↔ s.Settled := by
  have hstep := commit.step
  unfold System.Step at hstep
  have hconn := markConnected_alive commit.alive
  have hquiet : ∀ thread ∈ s.threads, (thread.wake s.conn.markConnected.1).quiet
      s.conn.markConnected.1 = thread.settled s.conn := fun thread hthread =>
    quiet_wake commit.alive (hawake thread hthread)
  have hstate : s.conn.markConnected.1.state = .connected := by rw [hconn]; simp
  have halive : s.conn.markConnected.1.permanent = false := by rw [hconn]; simp [commit.alive]
  rcases commit.call with rfl | ⟨i, rfl, hthread⟩
  · cases hstep
    constructor
    · intro hcalm thread hmem
      rw [← hquiet thread hmem]
      exact hcalm.quiet _ (List.mem_map_of_mem hmem)
    · intro hsettled
      refine ⟨hstate, halive, fun thread hmem => ?_⟩
      obtain ⟨thread₀, hmem₀, rfl⟩ := List.mem_map.mp hmem
      exact (hquiet thread₀ hmem₀).trans (hsettled thread₀ hmem₀)
  · -- The thread of the commit is settled before and quiet after it.
    simp only [System.step, hthread, Thread.advance, Option.toList_none, List.append_nil] at hstep
    cases hstep
    constructor
    · intro hcalm thread hmem
      obtain ⟨j, hj⟩ := List.mem_iff_getElem?.mp hmem
      by_cases hij : i = j
      · subst hij
        rw [hthread] at hj
        cases hj
        rfl
      · rw [← hquiet thread hmem]
        apply hcalm.quiet
        refine List.mem_map_of_mem (List.mem_iff_getElem?.mpr ⟨j, ?_⟩)
        rw [List.getElem?_set_ne hij, hj]
    · intro hsettled
      refine ⟨hstate, halive, fun thread hmem => ?_⟩
      obtain ⟨thread₀, hmem₀, rfl⟩ := List.mem_map.mp hmem
      rcases List.mem_or_eq_of_mem_set hmem₀ with hold | rfl
      · exact (hquiet thread₀ hold).trans (hsettled thread₀ hold)
      · rfl

theorem stable_calm {s : System} (halive : s.conn.permanent = false)
    (hstate : s.conn.state = .connected) (h : s.Stable) : s.Calm := by
  refine ⟨hstate, halive, fun thread hmem => ?_⟩
  by_contra hquiet
  rw [Bool.not_eq_true] at hquiet
  obtain ⟨i, hi⟩ := List.mem_iff_getElem?.mp hmem
  obtain ⟨es, t, run, hkeeps, hbreaks⟩ := unquiet_harmful halive hquiet s i rfl hi
  exact hbreaks (h es t run hkeeps)

/-- In every state that a run reaches, a commit of `CONNECTED` lasts until the
handler of a loss, and no goroutine starts until then, exactly when everything
else is settled at the commit: every attempt has ended or is parked on the
current connected channel, and every pending timer has an older generation. -/
theorem stable_iff_settled {paired : Bool} {es : List Event} {s t : System} {e : Event}
    (run : Exec System.Step (System.initial paired) es s) (commit : s.Commits e t) :
    t.Stable ↔ s.Settled := by
  have hcalm := commit_calm (awake_run run) commit
  constructor
  · intro hstable
    obtain ⟨hstate, -⟩ := hstable [] t .nil (by simp)
    have halive : t.conn.permanent = false := by
      rw [commit.conn, markConnected_alive commit.alive]
      simp [commit.alive]
    exact hcalm.mp (stable_calm halive hstate hstable)
  · exact fun hsettled => calm_stable (hcalm.mpr hsettled)

/-! ## Sample schedules -/

/-- The system after these events, where each of them can happen. -/
def System.run : System → List Event → Option System
  | s, [] => some s
  | s, e :: es => (s.step e).bind fun t => t.run es

theorem exec_of_run {s t : System} {es : List Event} (h : s.run es = some t) :
    Exec System.Step s es t := by
  induction es generalizing s with
  | nil =>
    cases h
    exact .nil
  | cons e es ih =>
    obtain ⟨u, hstep, hrest⟩ := Option.bind_eq_some_iff.mp h
    have hfirst : s.Step e u := hstep
    exact (Exec.single hfirst).append (ih hrest)

/-- A paired device connects: the first attempt waits for the connected event. -/
def sampleConnect : List Event :=
  [.thread 0 .go, .thread 0 .go, .thread 0 .go, .thread 0 .go, .thread 0 .succeed, .thread 0 .park]

/-- A disconnect, the timer of the new goroutine `i`, and its attempt up to the
wait.  The handler is thread `i - 1`. -/
def sampleReconnect (i : Nat) : List Event :=
  [.disconnected, .thread (i - 1) .go, .thread (i - 1) .go, .thread i .timer, .thread i .go,
    .thread i .go, .thread i .go, .thread i .go, .thread i .go, .thread i .succeed, .thread i .park]

/-- The state where the first attempt waits. -/
def sampleWaiting : System :=
  ((System.initial true).run sampleConnect).getD (System.initial true)

/-- The first connected event comes while the first attempt waits for it. -/
theorem stable_iff_settled_of_sampleConnect :
    ∃ t u, sampleWaiting.step .connected = some t ∧
      t.run [.thread 0 .go, .stop] = some u ∧ u.conn.state = .connected := by
  refine ⟨_, _, rfl, rfl, ?_⟩
  have hrun : Exec System.Step (System.initial true) sampleConnect sampleWaiting :=
    exec_of_run rfl
  have hsettled : sampleWaiting.Settled := by
    unfold System.Settled
    decide
  have hstable := (stable_iff_settled (e := .connected) hrun ⟨rfl, rfl, .inl rfl⟩).mpr hsettled
  exact (hstable [.thread 0 .go, .stop] _ (exec_of_run rfl) (by decide)).1

/-- Two attempts overlap.  The newer one succeeds, and the older one, which
still waits for its own channel, times out and disconnects. -/
theorem stale_attempt_disconnects :
    ¬ ∀ paired es s e t, Exec System.Step (System.initial paired) es s → s.Commits e t →
      t.Stable := by
  intro hall
  have hstable := hall true
    (sampleConnect ++ [.connected, .thread 0 .go] ++ sampleReconnect 2 ++ sampleReconnect 4) _
    .connected _ (exec_of_run rfl) ⟨rfl, rfl, .inl rfl⟩
  have hlost := (hstable [.thread 2 .timer, .thread 2 .go] _ (exec_of_run rfl) (by decide)).1
  revert hlost
  decide

end WhatsAppMcp.Bridge.Manager
