import Mathlib.Data.List.Perm.Subperm
import WhatsAppMcp.Controller.Scheduler.Coordinator

/-!
# The bounds of the coordinator

Two invariants carry the bounds.  `Bounded` is about `active`: it has room for the chat that the
loop is about to claim, and every promise whose `finally` has not run is in it.  `Ordered` is about
the drain: how far it has come says what cannot begin any more.

* `scan_spec`: what the `for` does before it awaits again.
* `step_bounded`, `step_ordered`: one step keeps the invariants.
* `step_calls`: in which state a call is made.
* `coordinator_bounds`: the bounds in every run.
-/

namespace WhatsAppMcp.Controller.Scheduler

open Trace (Exec)

/-- How far the drain has come. -/
def DrainPc.stage : DrainPc → Nat
  | .idle => 0
  | .startTask => 1
  | .loop => 2
  | .workers _ => 3
  | .heartbeat => 4
  | .release => 5
  | .done => 6

/-- The chat that the loop is about to claim. -/
def LoopPc.turn? : LoopPc → Option String
  | .recovering _ chat _ | .claiming _ chat _ => some chat
  | _ => none

/-- The call claims work. -/
def CoordinatorCall.Claims : CoordinatorCall → Prop
  | .claimNext .. => True
  | _ => False

/-- The call releases the app lease. -/
def CoordinatorCall.Releases : CoordinatorCall → Prop
  | .releaseApp _ => True
  | _ => False

/-- A call that neither claims nor releases, and reports no loss. -/
def CoordinatorCall.Quiet (call : CoordinatorCall) : Prop :=
  ¬ call.Claims ∧ ¬ call.Releases ∧ call ≠ .emit .leaseLost

namespace Coordinator

variable {c : CoordinatorOptions} {chats : List String} {s t : Coordinator} {r : Coordinator.After}
  {active : List (String × Nat)} {tasks : List Task}

/-! ## Invariants -/

/-- The places of `active` are in bounds. -/
structure Slots (c : CoordinatorOptions) (active : List (String × Nat)) (tasks : List Task) : Prop where
  keys : (active.map Prod.fst).Nodup
  size : (active.length : Int) ≤ c.concurrency
  held : ∀ (n : Nat) (task : Task), tasks[n]? = some task → task.pc ≠ .finished →
    (task.chat, n) ∈ active

/-- There is room for a worker of this chat. -/
def Room (c : CoordinatorOptions) (active : List (String × Nat)) (chat : String) : Prop :=
  active.lookup chat = none ∧ (active.length : Int) < c.concurrency

/-- `active` is in bounds, and the loop has room where it is about to claim. -/
structure Bounded (c : CoordinatorOptions) (s : Coordinator) : Prop where
  slots : Slots c s.active s.tasks
  room : ∀ chat, s.loop.turn? = some chat → Room c s.active chat

/-- What cannot begin any more. -/
structure Ordered (s : Coordinator) : Prop where
  stopped : 1 ≤ s.drain.stage → s.stopped = true
  startTask : 2 ≤ s.drain.stage → s.startTask ≠ .acquiring
  loop : 3 ≤ s.drain.stage → s.LoopEnded
  workers : 4 ≤ s.drain.stage → s.active = []

/-! ## The loop -/

/-- What the loop does before it awaits again: it only moves itself, to a chat with room. -/
structure Moved (c : CoordinatorOptions) (s : Coordinator) (r : After) : Prop where
  state : ∃ position loop, r.1 = { s with position := position, loop := loop } ∧
    ∀ chat, loop.turn? = some chat → Room c s.active chat
  calls : ∀ call ∈ r.2, call.Quiet

theorem poll_spec (c : CoordinatorOptions) (s : Coordinator) : Moved c s (s.poll c) := by
  unfold poll
  split
  · exact ⟨⟨s.position, .ended, rfl, nofun⟩, nofun⟩
  · refine ⟨⟨s.position, .waiting, rfl, nofun⟩, ?_⟩
    intro call hcall
    rw [List.mem_singleton.mp hcall]
    exact ⟨id, id, nofun⟩

/-- The position of the loop does not matter to what it does. -/
theorem Moved.of_position {position : Nat} (h : Moved c { s with position := position } r) :
    Moved c s r := by
  obtain ⟨position', loop, hstate, hroom⟩ := h.state
  exact ⟨⟨position', loop, hstate, hroom⟩, h.calls⟩

theorem scan_spec (c : CoordinatorOptions) (chats : List String) (owner : Option String) (left : Nat)
    (s : Coordinator) : Moved c s (scan c chats owner left s) := by
  induction left generalizing s with
  | zero => exact poll_spec c s
  | succ left ih =>
    unfold scan
    split
    · exact poll_spec c s
    split
    · exact poll_spec c s
    · next hsize =>
      dsimp only
      split
      · exact (ih _).of_position
      · split
        · exact (ih _).of_position
        · next chat _ hfree =>
          cases owner with
          | none =>
            exact ⟨⟨_, .failed, rfl, nofun⟩, nofun⟩
          | some owner =>
            refine ⟨⟨_, .recovering left chat owner, rfl, ?_⟩, ?_⟩
            · intro chat' hchat
              obtain rfl := Option.some.inj hchat
              simp only [Bool.or_eq_true, decide_eq_true_eq, not_or, Bool.not_eq_true,
                Option.isSome_eq_false_iff, Option.isNone_iff_eq_none] at hfree
              exact ⟨hfree.2, by omega⟩
            · intro call hcall
              rw [List.mem_singleton.mp hcall]
              exact ⟨id, id, nofun⟩

theorem turn_spec (c : CoordinatorOptions) (chats : List String) (owner : Option String)
    (s : Coordinator) : Moved c s (turn c chats owner s) := by
  unfold turn
  split
  · exact scan_spec c chats owner _ s
  · exact ⟨⟨s.position, .ended, rfl, nofun⟩, nofun⟩

theorem Slots.moved (h : Slots c s.active s.tasks) (hr : Moved c s r) : Bounded c r.1 := by
  obtain ⟨position, loop, hstate, hroom⟩ := hr.state
  rw [hstate]
  exact ⟨h, hroom⟩

/-! ## Workers -/

theorem lookup_eq_none_iff {chat : String} :
    active.lookup chat = none ↔ ∀ n, (chat, n) ∉ active := by
  simp only [List.lookup_eq_none_iff, bne_iff_ne, Prod.forall]
  exact ⟨fun h n hmem => h chat n hmem rfl, fun h chat' n hmem heq => h n (heq ▸ hmem)⟩

theorem lookup_eq_some_of_mem {chat : String} {n : Nat} (hkeys : (active.map Prod.fst).Nodup)
    (h : (chat, n) ∈ active) : active.lookup chat = some n := by
  induction active with
  | nil => cases h
  | cons a active ih =>
    obtain ⟨hnotMem, hkeys⟩ := List.nodup_cons.mp hkeys
    rcases List.mem_cons.mp h with rfl | h
    · simp
    · have hne : chat ≠ a.1 := by
        rintro rfl
        exact hnotMem (List.mem_map.mpr ⟨_, h, rfl⟩)
      have hbeq : (chat == a.1) = false := by simpa using hne
      rw [List.lookup_cons, hbeq]
      exact ih hkeys h

/-- Fewer places are in bounds, as long as the promises that are not finished keep theirs. -/
theorem Slots.filter (h : Slots c active tasks) (p : String × Nat → Bool) {tasks' : List Task}
    (hheld : ∀ (n : Nat) (task : Task), tasks'[n]? = some task → task.pc ≠ .finished →
      (task.chat, n) ∈ active ∧ p (task.chat, n) = true) : Slots c (active.filter p) tasks' where
  keys := h.keys.sublist (List.filter_sublist.map _)
  size := by
    have hle := List.length_filter_le p active
    have hsize := h.size
    omega
  held n task htask hpc := List.mem_filter.mpr (hheld n task htask hpc)

/-- A new promise takes a free place. -/
theorem Slots.add {chat : String} (h : Slots c s.active s.tasks) (hroom : Room c s.active chat)
    (pc : TaskPc) : Slots c (s.add chat pc).active (s.add chat pc).tasks := by
  obtain ⟨hfree, hsize⟩ := hroom
  have hkey := lookup_eq_none_iff.mp hfree
  have hsame : s.active.filter (·.1 ≠ chat) = s.active := by
    rw [List.filter_eq_self]
    intro a ha
    have hne : a.1 ≠ chat := fun heq => hkey a.2 (heq ▸ ha)
    simpa using hne
  show Slots c (s.active.filter (·.1 ≠ chat) ++ [(chat, s.tasks.length)]) (s.tasks ++ [⟨chat, pc⟩])
  rw [hsame]
  refine ⟨?_, ?_, ?_⟩
  · rw [List.map_append, List.nodup_append]
    refine ⟨h.keys, by simp, ?_⟩
    intro key hkey' key' hsingle heq
    obtain ⟨a, ha, rfl⟩ := List.mem_map.mp hkey'
    obtain rfl : key' = chat := by simpa using hsingle
    exact hkey a.2 (heq ▸ ha)
  · simp only [List.length_append, List.length_cons, List.length_nil]
    omega
  · intro n task htask hpc
    rw [List.mem_append]
    rcases Nat.lt_or_ge n s.tasks.length with hn | hn
    · rw [List.getElem?_append_left hn] at htask
      exact Or.inl (h.held n task htask hpc)
    · rw [List.getElem?_append_right hn, List.getElem?_singleton] at htask
      split at htask
      · next hzero =>
        cases htask
        rw [show n = s.tasks.length by omega]
        exact Or.inr (List.mem_singleton.mpr rfl)
      · cases htask

theorem getElem?_set_pc {n m : Nat} {task task' : Task} {pc : TaskPc} (h : tasks[n]? = some task)
    (h' : (tasks.set n { task with pc := pc })[m]? = some task') :
    m = n ∧ task' = { task with pc := pc } ∨ m ≠ n ∧ tasks[m]? = some task' := by
  rcases eq_or_ne m n with rfl | hne
  · obtain ⟨hlt, -⟩ := List.getElem?_eq_some_iff.mp h
    rw [List.getElem?_set_self hlt] at h'
    exact Or.inl ⟨rfl, (Option.some.inj h').symm⟩
  · rw [List.getElem?_set_ne hne.symm] at h'
    exact Or.inr ⟨hne, h'⟩

/-- A promise that settles keeps its place. -/
theorem Slots.settled {n : Nat} {task : Task} {pc : TaskPc} (h : Slots c active tasks)
    (htask : tasks[n]? = some task) (hrunning : task.pc ≠ .finished) :
    Slots c active (tasks.set n { task with pc := pc }) where
  keys := h.keys
  size := h.size
  held m task' htask' hpc := by
    rcases getElem?_set_pc htask htask' with ⟨rfl, rfl⟩ | ⟨-, hold⟩
    · exact h.held m task htask hrunning
    · exact h.held m task' hold hpc

/-- A promise that is finished gives its place up, and no other. -/
theorem Slots.finished {n : Nat} {task : Task} (h : Slots c s.active s.tasks)
    (htask : s.tasks[n]? = some task) :
    Slots c (s.finish n task).1.active (s.finish n task).1.tasks := by
  have hothers : ∀ (m : Nat) (task' : Task),
      (s.tasks.set n { task with pc := .finished })[m]? = some task' → task'.pc ≠ .finished →
      m ≠ n ∧ (task'.chat, m) ∈ s.active := by
    intro m task' htask' hpc
    rcases getElem?_set_pc htask htask' with ⟨-, rfl⟩ | ⟨hne, hold⟩
    · exact absurd rfl hpc
    · exact ⟨hne, h.held m task' hold hpc⟩
  show Slots c (if s.active.lookup task.chat = some n then s.active.filter (·.1 ≠ task.chat)
    else s.active) (s.tasks.set n { task with pc := .finished })
  split
  · next hlookup =>
    apply h.filter
    intro m task' htask' hpc
    obtain ⟨hne, hmem⟩ := hothers m task' htask' hpc
    refine ⟨hmem, ?_⟩
    simp only [ne_eq, decide_not, Bool.not_eq_eq_eq_not, Bool.not_true, decide_eq_false_iff_not]
    intro heq
    rw [← heq, lookup_eq_some_of_mem h.keys hmem] at hlookup
    exact hne (Option.some.inj hlookup)
  · exact ⟨h.keys, h.size, fun m task' htask' hpc => (hothers m task' htask' hpc).2⟩

/-! ## One step -/

/-- What a step keeps of the flags, and in which state it makes its calls. -/
structure Kept (s : Coordinator) (r : After) : Prop where
  stopped : s.stopped = true → r.1.stopped = true
  reported : r.1.lossReported = true → s.lossReported = true ∨ r.1.stopped = true
  dead : s.startTask = .settled → r.1.startTask = .settled ∧ (s.live = false → r.1.live = false)
  claims : ∀ call ∈ r.2, call.Claims → s.stopped = false
  releases : ∀ call ∈ r.2, call.Releases → s.drain = .heartbeat ∧ s.live = true
  losses : .emit .leaseLost ∈ r.2 → r.1.stopped = true ∧ r.1.live = false

/-- A step that makes quiet calls. -/
theorem Kept.quiet {t : Coordinator} {calls : List CoordinatorCall}
    (hstopped : s.stopped = true → t.stopped = true)
    (hreported : t.lossReported = true → s.lossReported = true ∨ t.stopped = true)
    (hdead : s.startTask = .settled → t.startTask = .settled ∧ (s.live = false → t.live = false))
    (hcalls : ∀ call ∈ calls, call.Quiet) : Kept s (t, calls) :=
  ⟨hstopped, hreported, hdead, fun call hcall h => absurd h (hcalls call hcall).1,
    fun call hcall h => absurd h (hcalls call hcall).2.1,
    fun hloss => absurd rfl (hcalls _ hloss).2.2⟩

/-- A step that makes no call. -/
theorem Kept.silent {t : Coordinator} (hstopped : s.stopped = true → t.stopped = true)
    (hreported : t.lossReported = true → s.lossReported = true ∨ t.stopped = true)
    (hdead : s.startTask = .settled → t.startTask = .settled ∧ (s.live = false → t.live = false)) :
    Kept s (t, []) :=
  .quiet hstopped hreported hdead nofun

/-- What the loop does afterwards changes nothing of it. -/
theorem Kept.moved {s' : Coordinator} {calls : List CoordinatorCall} (h : Kept s (s', calls))
    (hr : Moved c s' r) : Kept s (r.1, calls ++ r.2) := by
  obtain ⟨position, loop, hstate, -⟩ := hr.state
  rw [hstate]
  refine ⟨h.stopped, h.reported, h.dead, ?_, ?_, ?_⟩
  · intro call hcall hclaims
    rcases List.mem_append.mp hcall with hcall | hcall
    · exact h.claims call hcall hclaims
    · exact absurd hclaims (hr.calls call hcall).1
  · intro call hcall hreleases
    rcases List.mem_append.mp hcall with hcall | hcall
    · exact h.releases call hcall hreleases
    · exact absurd hreleases (hr.calls call hcall).2.1
  · intro hloss
    rcases List.mem_append.mp hloss with hloss | hloss
    · exact h.losses hloss
    · exact absurd rfl (hr.calls _ hloss).2.2

theorem Ordered.moved (h : Ordered s) (hstage : s.drain.stage ≤ 2) (hr : Moved c s r) : Ordered r.1 := by
  obtain ⟨position, loop, hstate, -⟩ := hr.state
  rw [hstate]
  exact ⟨h.stopped, h.startTask, fun h3 => absurd h3 (by show ¬ 3 ≤ s.drain.stage; omega), h.workers⟩

/-- What every step does. -/
structure Allowed (c : CoordinatorOptions) (s : Coordinator) (r : After) : Prop where
  bounded : Bounded c r.1
  ordered : Ordered r.1
  kept : Kept s r

/-- The loop goes on from a state in which it is not at its end. -/
theorem Allowed.moved {s' : Coordinator} {calls : List CoordinatorCall}
    (hslots : Slots c s'.active s'.tasks) (hordered : Ordered s') (hstage : s'.drain.stage ≤ 2)
    (hkept : Kept s (s', calls)) (hr : Moved c s' r) : Allowed c s (r.1, calls ++ r.2) := by
  have hb : Bounded c r.1 := hslots.moved hr
  have ho : Ordered r.1 := hordered.moved hstage hr
  exact ⟨hb, ho, hkept.moved hr⟩

/-- The same where nothing but the place of the loop, its cursors and its workers have changed. -/
theorem Allowed.goesOn {s' : Coordinator} (hslots : Slots c s'.active s'.tasks) (hordered : Ordered s')
    (hstage : s'.drain.stage ≤ 2) (hstopped : s'.stopped = s.stopped) (hlive : s'.live = s.live)
    (hstart : s'.startTask = s.startTask) (hreported : s'.lossReported = s.lossReported) (hr : Moved c s' r) : Allowed c s r := by
  have hkept : Kept s (s', []) :=
    .silent (fun h => hstopped.trans h) (fun h => Or.inl (hreported.symm.trans h)) fun h => ⟨hstart.trans h, fun h' => hlive.trans h'⟩
  exact .moved hslots hordered hstage hkept hr

/-- A step that leaves the workers, the drain and `startTask` alone, and the loop where it is or at
an await without a turn. -/
theorem Allowed.frame {t : Coordinator} {calls : List CoordinatorCall} (hb : Bounded c s)
    (ho : Ordered s) (hactive : t.active = s.active) (htasks : t.tasks = s.tasks)
    (hloop : t.loop = s.loop ∨ t.loop.turn? = none ∧ ¬ s.LoopEnded) (hdrain : t.drain = s.drain)
    (hstart : t.startTask = s.startTask) (hkept : Kept s (t, calls)) : Allowed c s (t, calls) := by
  refine ⟨⟨?_, fun chat hchat => ?_⟩, ⟨?_, ?_, ?_, ?_⟩, hkept⟩
  · show Slots c t.active t.tasks
    rw [hactive, htasks]
    exact hb.slots
  · show Room c t.active chat
    rw [hactive]
    rcases hloop with hloop | ⟨hloop, -⟩
    · exact hb.room chat (hloop ▸ hchat)
    · have hnone : t.loop.turn? = some chat := hchat
      rw [hloop] at hnone
      cases hnone
  · show 1 ≤ t.drain.stage → _
    rw [hdrain]
    exact fun h => hkept.stopped (ho.stopped h)
  · show 2 ≤ t.drain.stage → t.startTask ≠ _
    rw [hdrain, hstart]
    exact ho.startTask
  · show 3 ≤ t.drain.stage → t.loop = _ ∨ t.loop = _
    rw [hdrain]
    intro h
    rcases hloop with hloop | ⟨-, hnot⟩
    · rw [hloop]
      exact ho.loop h
    · exact absurd (ho.loop h) hnot
  · show 4 ≤ t.drain.stage → t.active = []
    rw [hdrain, hactive]
    exact ho.workers

/-- The loop is not at its end while it awaits a step of its turn. -/
theorem Ordered.stage_le (h : Ordered s) (hloop : ¬ s.LoopEnded) : s.drain.stage ≤ 2 := by
  by_contra hgt
  exact hloop (h.loop (by omega))

/-! ### Loss -/

theorem lose_kept {s' : Coordinator} (hstopped : s.stopped = true → s'.stopped = true)
    (hreported : s'.lossReported = true → s.lossReported = true ∨ s'.stopped = true)
    (hdead : s.startTask = .settled → s'.startTask = .settled ∧ (s.live = false → s'.live = false)) :
    Kept s s'.lose := by
  unfold lose
  split
  · exact .silent hstopped hreported hdead
  · refine ⟨fun _ => rfl, fun _ => Or.inr rfl, fun hstart => ⟨(hdead hstart).1, fun _ => rfl⟩, ?_, ?_, fun _ => ⟨rfl, rfl⟩⟩
    · intro call hcall hclaims
      rw [List.mem_singleton.mp hcall] at hclaims
      exact hclaims.elim
    · intro call hcall hreleases
      rw [List.mem_singleton.mp hcall] at hreleases
      exact hreleases.elim

/-- A loss changes only flags. -/
theorem lose_frame (s : Coordinator) : s.lose.1.active = s.active ∧ s.lose.1.tasks = s.tasks ∧
    s.lose.1.loop = s.loop ∧ s.lose.1.drain = s.drain ∧ s.lose.1.startTask = s.startTask := by
  unfold lose
  split <;> exact ⟨rfl, rfl, rfl, rfl, rfl⟩

theorem Allowed.lose (hb : Bounded c s) (ho : Ordered s) : Allowed c s s.lose := by
  obtain ⟨hactive, htasks, hloop, hdrain, hstart⟩ := lose_frame s
  exact .frame hb ho hactive htasks (Or.inl hloop) hdrain hstart (lose_kept id Or.inl fun h => ⟨h, id⟩)

/-- The loop ends with a loss. -/
theorem Allowed.loopCaught (hb : Bounded c s) (ho : Ordered s) (hloop : s.loop = .failed) :
    Allowed c s { s with loop := .ended }.lose := by
  obtain ⟨hactive, htasks, hloop', hdrain, hstart⟩ := lose_frame { s with loop := .ended }
  have hgoing : ¬ s.LoopEnded := by
    rw [LoopEnded, hloop]
    exact fun h => h.elim nofun nofun
  have hturn : { s with loop := .ended }.lose.1.loop.turn? = none := by
    rw [hloop']
    rfl
  exact .frame hb ho hactive htasks (Or.inr ⟨hturn, hgoing⟩) hdrain hstart
    (lose_kept id Or.inl fun h => ⟨h, id⟩)

/-- The heartbeat ends with a loss. -/
theorem Allowed.heartbeatLost (hb : Bounded c s) (ho : Ordered s) :
    Allowed c s { s with heartbeat := .ended }.lose := by
  obtain ⟨hactive, htasks, hloop, hdrain, hstart⟩ := lose_frame { s with heartbeat := .ended }
  exact .frame hb ho hactive htasks (Or.inl hloop) hdrain hstart (lose_kept id Or.inl fun h => ⟨h, id⟩)

/-- A step of the heartbeat that makes a quiet call. -/
theorem Allowed.heartbeat {heartbeat : HeartbeatPc} {app : Option Fence} {calls : List CoordinatorCall}
    (hb : Bounded c s) (ho : Ordered s) (hcalls : ∀ call ∈ calls, call.Quiet) :
    Allowed c s ({ s with heartbeat := heartbeat, app := app }, calls) :=
  .frame hb ho rfl rfl (Or.inl rfl) rfl rfl (.quiet id Or.inl (fun h => ⟨h, id⟩) hcalls)

/-! ### Loop -/

section Loop

variable {left : Nat} {chat owner : String} {next : Option String}

theorem loop_going {loop : LoopPc} (hloop : s.loop = loop) (hidle : loop ≠ .idle) (hended : loop ≠ .ended) :
    ¬ s.LoopEnded := by
  rintro (h | h)
  · exact hidle (hloop.symm.trans h)
  · exact hended (hloop.symm.trans h)

/-- The loop fails. -/
theorem Allowed.failed (hb : Bounded c s) (ho : Ordered s) (hgoing : ¬ s.LoopEnded) :
    Allowed c s ({ s with loop := .failed }, []) :=
  .frame hb ho rfl rfl (Or.inr ⟨rfl, hgoing⟩) rfl rfl (.silent id Or.inl fun h => ⟨h, id⟩)

theorem Allowed.recovered (hb : Bounded c s) (ho : Ordered s) (hloop : s.loop = .recovering left chat owner)
    (answer : Awaited PelRecovery) : Allowed c s (recovered c chats s left chat owner answer next) := by
  have hgoing : ¬ s.LoopEnded := loop_going hloop nofun nofun
  have hstage := ho.stage_le hgoing
  have hroom : Room c s.active chat := hb.room chat (by rw [hloop]; rfl)
  unfold Coordinator.recovered
  split
  · exact .failed hb ho hgoing
  · next cursor _ deleted =>
    have ho' : Ordered (s.setCursor chat cursor) := ⟨ho.stopped, ho.startTask, ho.loop, ho.workers⟩
    have hslots : Slots c (s.setCursor chat cursor).active (s.setCursor chat cursor).tasks := hb.slots
    dsimp only
    split
    · exact .goesOn hslots ho' hstage rfl rfl rfl rfl (scan_spec c chats next left (s.setCursor chat cursor))
    split
    · exact .goesOn hslots ho' hstage rfl rfl rfl rfl (poll_spec c (s.setCursor chat cursor))
    · next hgo =>
      simp only [Bool.or_eq_true, not_or, Bool.not_eq_true] at hgo
      refine ⟨⟨hb.slots, fun chat' hchat => ?_⟩, ⟨ho.stopped, ho.startTask, fun h => ?_, ho.workers⟩, ?_⟩
      · obtain rfl := Option.some.inj hchat
        exact hroom
      · exact absurd h (by show ¬ 3 ≤ s.drain.stage; omega)
      · refine ⟨id, Or.inl, fun h => ⟨h, id⟩, fun _ _ _ => hgo.1, ?_, ?_⟩
        · intro call hcall hreleases
          rw [List.mem_singleton.mp hcall] at hreleases
          exact hreleases.elim
        · intro hloss
          cases List.mem_singleton.mp hloss
  · exact .goesOn hb.slots ho hstage rfl rfl rfl rfl (scan_spec c chats next left s)

theorem Allowed.claimed (hb : Bounded c s) (ho : Ordered s) (hloop : s.loop = .claiming left chat owner)
    (answer : Awaited ClaimResult) : Allowed c s (claimed c chats s left chat answer next) := by
  have hgoing : ¬ s.LoopEnded := loop_going hloop nofun nofun
  have hstage := ho.stage_le hgoing
  have hroom : Room c s.active chat := hb.room chat (by rw [hloop]; rfl)
  have hadd : ∀ pc, Ordered (s.add chat pc) := fun pc =>
    ⟨ho.stopped, ho.startTask, ho.loop, fun h => absurd h (by show ¬ 4 ≤ s.drain.stage; omega)⟩
  unfold Coordinator.claimed
  split
  · exact .failed hb ho hgoing
  · have hlost := Allowed.lose hb ho
    have hdrain : s.lose.1.drain = s.drain := (lose_frame s).2.2.2.1
    exact .moved hlost.bounded.slots hlost.ordered (by rw [hdrain]; exact hstage) hlost.kept
      (poll_spec c s.lose.1)
  · split
    · exact .goesOn (hb.slots.add hroom .fulfilled) (hadd .fulfilled) hstage rfl rfl rfl rfl
        (scan_spec c chats next left (s.add chat .fulfilled))
    · next work _ =>
      have hquiet : ∀ call ∈ [CoordinatorCall.runChatWorker work], call.Quiet := by
        intro call hcall
        rw [List.mem_singleton.mp hcall]
        exact ⟨id, id, nofun⟩
      have hkept : Kept s (s.add chat .running, [.runChatWorker work]) :=
        .quiet id Or.inl (fun h => ⟨h, id⟩) hquiet
      exact .moved (hb.slots.add hroom .running) (hadd .running) hstage hkept
        (scan_spec c chats next left (s.add chat .running))
  · exact .goesOn hb.slots ho hstage rfl rfl rfl rfl (scan_spec c chats next left s)

end Loop

/-! ### Start, drain and workers -/

theorem Allowed.start (hb : Bounded c s) (ho : Ordered s) (id : Option String) :
    Allowed c s (s.start c id) := by
  unfold Coordinator.start
  split
  · exact .frame hb ho rfl rfl (Or.inl rfl) rfl rfl (.silent (fun h => h) Or.inl fun h => ⟨h, fun h' => h'⟩)
  · next hfirst =>
    simp only [ne_eq, Bool.or_eq_true, decide_eq_true_eq, not_or, Bool.not_eq_true, not_not] at hfirst
    have hidle : ¬ 1 ≤ s.drain.stage := fun h => by
      rw [ho.stopped h] at hfirst
      exact absurd hfirst.1.2 nofun
    have hordered : ∀ startTask, Ordered { s with started := true, startTask := startTask } :=
      fun startTask => ⟨ho.stopped, fun h => absurd h (by show ¬ 2 ≤ s.drain.stage; omega), ho.loop, ho.workers⟩
    have hdead : s.startTask ≠ .settled := by
      rw [hfirst.1.1]
      nofun
    split
    · exact ⟨⟨hb.slots, hb.room⟩, hordered .settled, .silent (fun h => h) Or.inl fun h => absurd h hdead⟩
    · next id =>
      refine ⟨⟨hb.slots, hb.room⟩, hordered .acquiring,
        .quiet (fun h => h) Or.inl (fun h => absurd h hdead) fun call hcall => ?_⟩
      rw [List.mem_singleton.mp hcall]
      exact ⟨fun h => h, fun h => h, nofun⟩

theorem beat_spec (c : CoordinatorOptions) (s : Coordinator) :
    (∃ heartbeat, (s.beat c).1 = { s with heartbeat := heartbeat }) ∧ ∀ call ∈ (s.beat c).2, call.Quiet := by
  unfold beat
  split
  · exact ⟨⟨_, rfl⟩, nofun⟩
  · refine ⟨⟨_, rfl⟩, fun call hcall => ?_⟩
    rw [List.mem_singleton.mp hcall]
    exact ⟨id, id, nofun⟩

theorem Allowed.acquired (hb : Bounded c s) (ho : Ordered s) (hstart : s.startTask = .acquiring)
    (answer : Awaited (Option Fence)) (next : Option String) :
    Allowed c s (acquired c chats s answer next) := by
  have hstage : ¬ 2 ≤ s.drain.stage := fun h => ho.startTask h hstart
  have hdead : s.startTask ≠ .settled := by
    rw [hstart]
    nofun
  unfold Coordinator.acquired
  split
  · next app =>
    obtain ⟨⟨heartbeat, hbeat⟩, hcalls⟩ := beat_spec c (s.hold app)
    have hkept : Kept s (((s.hold app).beat c).1, ((s.hold app).beat c).2) := by
      rw [hbeat]
      exact .quiet id Or.inl (fun h => absurd h hdead) hcalls
    have hslots : Slots c ((s.hold app).beat c).1.active ((s.hold app).beat c).1.tasks := by
      rw [hbeat]
      exact hb.slots
    have hordered : Ordered ((s.hold app).beat c).1 := by
      rw [hbeat]
      exact ⟨ho.stopped, fun h => absurd h hstage, ho.loop, ho.workers⟩
    have hstage' : ((s.hold app).beat c).1.drain.stage ≤ 2 := by
      rw [hbeat]
      show s.drain.stage ≤ 2
      omega
    exact .moved hslots hordered hstage' hkept (turn_spec c chats next ((s.hold app).beat c).1)
  · refine ⟨⟨hb.slots, hb.room⟩, ⟨ho.stopped, nofun, ho.loop, ho.workers⟩, .silent id Or.inl ?_⟩
    exact fun h => absurd h hdead

theorem Allowed.renewed (hb : Bounded c s) (ho : Ordered s) (answer : Awaited (Option Fence)) :
    Allowed c s (renewed c s answer) := by
  unfold Coordinator.renewed
  split
  · exact .heartbeat hb ho nofun
  · exact .heartbeatLost hb ho
  · next app =>
    obtain ⟨⟨heartbeat, hbeat⟩, hcalls⟩ := beat_spec c { s with app := some app }
    have hcalls' : Allowed c s ({ s with heartbeat := heartbeat, app := some app },
        ({ s with app := some app }.beat c).2) := .heartbeat hb ho hcalls
    rwa [← hbeat] at hcalls'

theorem Allowed.renew (hb : Bounded c s) (ho : Ordered s) (answer : Awaited Unit) :
    Allowed c s (renew c s answer) := by
  unfold Coordinator.renew
  split
  · exact .heartbeat hb ho nofun
  split
  · exact .heartbeat hb ho nofun
  split
  · exact .heartbeatLost hb ho
  · refine .heartbeat hb ho fun call hcall => ?_
    rw [List.mem_singleton.mp hcall]
    exact ⟨id, id, nofun⟩

/-- The drain goes on where the loop has ended. -/
theorem Allowed.settle (hb : Bounded c s) (ho : Ordered s) (hstage : 2 ≤ s.drain.stage)
    (hended : s.LoopEnded) : Allowed c s (s.settle, []) := by
  have hstopped := ho.stopped (by omega)
  have hstart := ho.startTask hstage
  unfold Coordinator.settle
  split
  · next hempty =>
    exact ⟨⟨hb.slots, hb.room⟩, ⟨fun _ => hstopped, fun _ => hstart, fun _ => hended, fun _ => hempty⟩,
      .silent id Or.inl fun h => ⟨h, id⟩⟩
  · exact ⟨⟨hb.slots, hb.room⟩, ⟨fun _ => hstopped, fun _ => hstart, fun _ => hended,
      fun h => absurd h (by show ¬ 4 ≤ 3; decide)⟩, .silent id Or.inl fun h => ⟨h, id⟩⟩

/-- The end of the drain. -/
theorem Allowed.done {calls : List CoordinatorCall} (hb : Bounded c s) (ho : Ordered s)
    (hstage : 4 ≤ s.drain.stage) (hcalls : ∀ call ∈ calls, call.Quiet) :
    Allowed c s ({ s with live := false, drain := .done }, calls) :=
  ⟨⟨hb.slots, hb.room⟩, ⟨fun _ => ho.stopped (by omega), fun _ => ho.startTask (by omega),
    fun _ => ho.loop (by omega), fun _ => ho.workers hstage⟩, .quiet id Or.inl (fun h => ⟨h, fun _ => rfl⟩) hcalls⟩

theorem Allowed.drainOn (hb : Bounded c s) (ho : Ordered s) (hstep : s.drainOn = some r) :
    Allowed c s r := by
  unfold Coordinator.drainOn at hstep
  split at hstep
  · next hdrain =>
    split at hstep
    · cases hstep
    · next hsettled =>
      cases hstep
      have hstopped := ho.stopped (by rw [hdrain]; decide)
      exact ⟨⟨hb.slots, hb.room⟩, ⟨fun _ => hstopped, fun _ => hsettled,
        fun h => absurd h (by show ¬ 3 ≤ 2; decide), fun h => absurd h (by show ¬ 4 ≤ 2; decide)⟩,
        .silent id Or.inl fun h => ⟨h, id⟩⟩
  · next hdrain =>
    split at hstep
    · next hended =>
      cases hstep
      exact .settle hb ho (by rw [hdrain]; decide) hended
    · cases hstep
  · next hdrain =>
    have hstage : 3 ≤ s.drain.stage := by rw [hdrain]; exact Nat.le_refl _
    split at hstep
    · cases hstep
      exact .settle hb ho (by omega) (ho.loop hstage)
    · cases hstep
  · next hdrain =>
    have hstage : 4 ≤ s.drain.stage := by rw [hdrain]; exact Nat.le_refl _
    split at hstep
    · cases hstep
    split at hstep
    · split at hstep
      · next app _ hlive =>
        cases hstep
        refine ⟨⟨hb.slots, hb.room⟩, ⟨fun _ => ho.stopped (by omega), fun _ => ho.startTask (by omega),
          fun _ => ho.loop (by omega), fun _ => ho.workers hstage⟩, ⟨id, Or.inl, fun h => ⟨h, id⟩, ?_, ?_, ?_⟩⟩
        · intro call hcall hclaims
          rw [List.mem_singleton.mp hcall] at hclaims
          exact hclaims.elim
        · exact fun _ _ _ => ⟨hdrain, hlive⟩
        · intro hloss
          cases List.mem_singleton.mp hloss
      · cases hstep
        exact .done hb ho hstage nofun
    · cases hstep
      exact .done hb ho hstage nofun
  all_goals cases hstep

theorem Allowed.finish {n : Nat} {task : Task} (hb : Bounded c s) (ho : Ordered s)
    (htask : s.tasks[n]? = some task) : Allowed c s (s.finish n task) := by
  refine ⟨⟨hb.slots.finished htask, fun chat hchat => ?_⟩, ⟨ho.stopped, ho.startTask, ho.loop, fun h => ?_⟩, ?_⟩
  · obtain ⟨hfree, hsize⟩ := hb.room chat hchat
    show Room c (if s.active.lookup task.chat = some n then s.active.filter (·.1 ≠ task.chat)
      else s.active) chat
    split
    · refine ⟨lookup_eq_none_iff.mpr fun m hmem => ?_, ?_⟩
      · exact lookup_eq_none_iff.mp hfree m (List.mem_filter.mp hmem).1
      · have hle := List.length_filter_le (fun a : String × Nat => decide (a.1 ≠ task.chat)) s.active
        omega
    · exact ⟨hfree, hsize⟩
  · have hempty : s.active = [] := ho.workers h
    show (if s.active.lookup task.chat = some n then s.active.filter (·.1 ≠ task.chat)
      else s.active) = []
    rw [hempty]
    rfl
  · refine .quiet id Or.inl (fun h => ⟨h, id⟩) fun call hcall => ?_
    split at hcall
    · rw [List.mem_singleton.mp hcall]
      exact ⟨id, id, nofun⟩
    · cases hcall

/-- Every step is allowed. -/
theorem step_allowed {e : CoordinatorEvent} (hb : Bounded c s) (ho : Ordered s)
    (hstep : s.step c chats e = some r) : Allowed c s r := by
  cases e with
  | start id =>
    cases hstep
    exact .start hb ho id
  | acquired answer next =>
    simp only [step] at hstep
    split at hstep
    · next hstart =>
      cases hstep
      exact .acquired hb ho hstart answer next
    · cases hstep
  | recovered answer next =>
    simp only [step] at hstep
    split at hstep
    · next left chat owner hloop =>
      cases hstep
      exact .recovered hb ho hloop answer
    · cases hstep
  | claimed answer next =>
    simp only [step] at hstep
    split at hstep
    · next left chat owner hloop =>
      cases hstep
      exact .claimed hb ho hloop answer
    · cases hstep
  | polled answer next =>
    simp only [step] at hstep
    split at hstep
    · next hloop =>
      have hgoing : ¬ s.LoopEnded := loop_going hloop nofun nofun
      split at hstep
      · cases hstep
        exact .failed hb ho hgoing
      · cases hstep
        exact .goesOn hb.slots ho (ho.stage_le hgoing) rfl rfl rfl rfl (turn_spec c chats next s)
    · cases hstep
  | loopCaught =>
    simp only [step] at hstep
    split at hstep
    · next hloop =>
      cases hstep
      exact .loopCaught hb ho hloop
    · cases hstep
  | beat answer =>
    simp only [step] at hstep
    split at hstep
    · cases hstep
      exact .renew hb ho answer
    · cases hstep
  | renewed answer =>
    simp only [step] at hstep
    split at hstep
    · cases hstep
      exact .renewed hb ho answer
    · cases hstep
  | heartbeatCaught =>
    simp only [step] at hstep
    split at hstep
    · cases hstep
      exact .heartbeatLost hb ho
    · cases hstep
  | settled n pc =>
    simp only [step] at hstep
    split at hstep
    · next task htask =>
      split at hstep
      · next hrunning =>
        cases hstep
        have hslots : Slots c s.active (s.tasks.set n { task with pc := pc }) :=
          hb.slots.settled htask (by rw [hrunning.1]; decide)
        exact ⟨⟨hslots, hb.room⟩, ⟨ho.stopped, ho.startTask, ho.loop, ho.workers⟩,
          .silent id Or.inl fun h => ⟨h, id⟩⟩
      · cases hstep
    · cases hstep
  | finished n =>
    simp only [step] at hstep
    split at hstep
    · next task htask =>
      split at hstep
      · cases hstep
        exact .finish hb ho htask
      · cases hstep
    · cases hstep
  | failClosed =>
    cases hstep
    exact .lose hb ho
  | stopScheduling =>
    cases hstep
    exact .frame hb ho rfl rfl (Or.inl rfl) rfl rfl (.silent (fun _ => rfl) (fun _ => Or.inr rfl) fun h => ⟨h, id⟩)
  | drain =>
    simp only [step] at hstep
    split at hstep
    · cases hstep
      exact ⟨⟨hb.slots, hb.room⟩, ⟨fun _ => rfl, fun h => absurd h (by show ¬ 2 ≤ 1; decide),
        fun h => absurd h (by show ¬ 3 ≤ 1; decide), fun h => absurd h (by show ¬ 4 ≤ 1; decide)⟩,
        .silent (fun _ => rfl) (fun _ => Or.inr rfl) fun h => ⟨h, id⟩⟩
    · cases hstep
  | drainOn => exact .drainOn hb ho hstep
  | released answer =>
    simp only [step] at hstep
    split at hstep
    · next hdrain =>
      cases hstep
      have hstage : 4 ≤ s.drain.stage := by rw [hdrain]; decide
      unfold released
      split
      · exact .done hb ho hstage nofun
      · refine .done hb ho hstage fun call hcall => ?_
        rw [List.mem_singleton.mp hcall]
        exact ⟨id, id, nofun⟩
    · cases hstep

/-! ## Runs -/

/-- What every state of a run satisfies. -/
structure Sound (c : CoordinatorOptions) (s : Coordinator) : Prop where
  bounded : Bounded c s
  ordered : Ordered s
  reported : s.lossReported = true → s.stopped = true

theorem Sound.step {e : CoordinatorEvent} (h : Sound c s) (hstep : s.step c chats e = some r) :
    Sound c r.1 := by
  obtain ⟨hb, ho, hkept⟩ := step_allowed h.bounded h.ordered hstep
  refine ⟨hb, ho, fun hreported => ?_⟩
  rcases hkept.reported hreported with hbefore | hstopped
  · exact hkept.stopped (h.reported hbefore)
  · exact hstopped

theorem sound_create (h : create c = .ok s) : Sound c s := by
  unfold create at h
  split at h
  · next hvalid =>
    cases h
    have hcapacity : 0 ≤ c.concurrency := by
      have := hvalid.1.1
      omega
    exact ⟨⟨⟨List.nodup_nil, hcapacity, nofun⟩, nofun⟩,
      ⟨fun h => absurd h (by decide), fun h => absurd h (by decide), fun h => absurd h (by decide), fun _ => rfl⟩,
      nofun⟩
  · cases h

theorem sound_run {ls : List Label} (h : Sound c s) (hrun : Exec (Step c chats) s ls t) : Sound c t :=
  hrun.invariant h fun _ _ _ hs hstep => hs.step hstep

/-- The label stops the coordinator or tells that the app lease is lost. -/
def Label.Stops (l : Label) : Prop :=
  l.event = .stopScheduling ∨ l.event = .drain ∨ l.event = .failClosed ∨ .emit .leaseLost ∈ l.calls

/-- The step after which the app lease is held. -/
def Label.Acquires (l : Label) : Prop := ∃ app next, l.event = .acquired (.resolved (some app)) next

theorem lose_stopped (h : Sound c s) : s.lose.1.stopped = true := by
  unfold lose
  split
  · next hreported => exact h.reported hreported
  · rfl

theorem stopped_of_stops {l : Label} (h : Sound c s) (hstep : Step c chats s l t) (hstops : l.Stops) :
    t.stopped = true := by
  rcases hstops with hevent | hevent | hevent | hloss
  · rw [Step, hevent] at hstep
    have ht : s.stopScheduling = t := congrArg Prod.fst (Option.some.inj hstep)
    rw [← ht]
    rfl
  · rw [Step, hevent, step] at hstep
    split at hstep
    · have ht : { s.stopScheduling with drain := .startTask } = t := congrArg Prod.fst (Option.some.inj hstep)
      rw [← ht]
      rfl
    · cases hstep
  · rw [Step, hevent] at hstep
    have ht : s.lose.1 = t := congrArg Prod.fst (Option.some.inj hstep)
    rw [← ht]
    exact lose_stopped h
  · exact ((step_allowed h.bounded h.ordered hstep).kept.losses hloss).1

/-- Nothing starts a coordinator again. -/
theorem stopped_run {ls : List Label} (h : Sound c s) (hrun : Exec (Step c chats) s ls t)
    (hstopped : s.stopped = true) : t.stopped = true := by
  have hinv : Sound c t ∧ t.stopped = true := by
    refine hrun.invariant (P := fun u => Sound c u ∧ u.stopped = true) ⟨h, hstopped⟩
      fun u l v hu hstep => ?_
    have hallowed := step_allowed hu.1.bounded hu.1.ordered hstep
    exact ⟨hu.1.step hstep, hallowed.kept.stopped hu.2⟩
  exact hinv.2

theorem settled_of_acquires {l : Label} (hstep : Step c chats s l t) (hacquires : l.Acquires) :
    t.startTask = .settled := by
  obtain ⟨app, next, hevent⟩ := hacquires
  rw [Step, hevent, step] at hstep
  split at hstep
  · obtain ⟨⟨heartbeat, hbeat⟩, -⟩ := beat_spec c (s.hold app)
    obtain ⟨position, loop, hstate, -⟩ := (turn_spec c chats next ((s.hold app).beat c).1).state
    have ht : (turn c chats next ((s.hold app).beat c).1).1 = t :=
      congrArg Prod.fst (Option.some.inj hstep)
    rw [← ht, hstate, hbeat]
    rfl
  · cases hstep

/-- A lease that is lost is not held again. -/
theorem dead_run {ls : List Label} (h : Sound c s) (hrun : Exec (Step c chats) s ls t)
    (hstart : s.startTask = .settled) :
    t.startTask = .settled ∧ (s.live = false ∨ (∃ l ∈ ls, .emit .leaseLost ∈ l.calls) → t.live = false) := by
  induction hrun with
  | nil => exact ⟨hstart, fun hdead => hdead.elim id fun ⟨l, hl, _⟩ => absurd hl List.not_mem_nil⟩
  | @snoc ls u v l run last ih =>
    have hu := sound_run h run
    have hkept := (step_allowed hu.bounded hu.ordered last).kept
    obtain ⟨hsettled, hlive⟩ := hkept.dead ih.1
    refine ⟨hsettled, fun hdead => ?_⟩
    rcases hdead with hdead | ⟨l', hl', hloss⟩
    · exact hlive (ih.2 (Or.inl hdead))
    · rcases List.mem_append.mp hl' with hl' | hl'
      · exact hlive (ih.2 (Or.inr ⟨l', hl', hloss⟩))
      · rw [List.mem_singleton.mp hl'] at hloss
        exact (hkept.losses hloss).2

/-! ## Bounds -/

/-- The workers that have not settled, with their chats. -/
def running (s : Coordinator) : List (String × Nat) :=
  (s.tasks.zipIdx.filter (·.1.pc = .running)).map fun a => (a.1.chat, a.2)

/-- Every worker that runs has a place in `active`. -/
theorem running_subperm (h : Slots c s.active s.tasks) : s.running.Subperm s.active := by
  apply List.subperm_of_subset
  · have hplaces : (s.running.map Prod.snd).Nodup := by
      have hsame : s.running.map Prod.snd = (s.tasks.zipIdx.filter (·.1.pc = .running)).map Prod.snd := by
        rw [running, List.map_map]
        rfl
      rw [hsame]
      apply List.Nodup.sublist (List.filter_sublist.map _)
      rw [List.zipIdx_map_snd]
      exact List.nodup_range'
    exact hplaces.of_map _
  · intro place hplace
    obtain ⟨⟨task, n⟩, hmem, rfl⟩ := List.mem_map.mp hplace
    obtain ⟨hmem, hpc⟩ := List.mem_filter.mp hmem
    have htask : s.tasks[n]? = some task := by simpa using List.mk_mem_zipIdx_iff_getElem?.mp hmem
    have hrunning : task.pc = .running := by simpa using hpc
    exact h.held n task htask (by rw [hrunning]; decide)

/-- The workers that run are in bounds, one for a chat. -/
theorem Slots.running (h : Slots c s.active s.tasks) :
    (s.running.length : Int) ≤ c.concurrency ∧ (s.running.map Prod.fst).Nodup := by
  have hsub := running_subperm h
  constructor
  · have hlength := hsub.length_le
    have hsize := h.size
    omega
  · obtain ⟨kept, hperm, hsublist⟩ := hsub
    exact (hperm.map Prod.fst).nodup_iff.mp (h.keys.sublist (hsublist.map _))

/-- The coordinator in every run: workers in bounds, no claim after a stop or a loss, and the app
lease released at the end of all work, unless its loss was reported.  What `failClosed` reports
before there is a lease is the loss of none. -/
theorem coordinator_bounds {s₀ : Coordinator} {ls : List Label} (hcreate : create c = .ok s₀)
    (hrun : Exec (Step c chats) s₀ ls t) :
    ((t.active.length : Int) ≤ c.concurrency ∧ (t.running.length : Int) ≤ c.concurrency ∧
      (t.running.map Prod.fst).Nodup) ∧
    (∀ before l after, ls = before ++ l :: after → (∃ call ∈ l.calls, call.Claims) →
      ∀ l' ∈ before, ¬ l'.Stops) ∧
    ∀ before l after, ls = before ++ l :: after → (∃ call ∈ l.calls, call.Releases) →
      ∃ u, Exec (Step c chats) s₀ before u ∧ u.LoopEnded ∧ (∀ task ∈ u.tasks, task.pc ≠ .running) ∧
        ∀ first a since, before = first ++ a :: since → a.Acquires →
          ∀ l' ∈ a :: since, .emit .leaseLost ∉ l'.calls := by
  have hsound := sound_create hcreate
  refine ⟨?_, ?_, ?_⟩
  · have hslots := (sound_run hsound hrun).bounded.slots
    exact ⟨hslots.size, hslots.running⟩
  · rintro before l after rfl ⟨call, hcall, hclaims⟩ l' hl' hstops
    obtain ⟨u, v, hbefore, hstep, -⟩ := hrun.split_cons
    have hu := sound_run hsound hbefore
    have hgoing := (step_allowed hu.bounded hu.ordered hstep).kept.claims call hcall hclaims
    obtain ⟨first, since, rfl⟩ := List.append_of_mem hl'
    obtain ⟨w, x, hfirst, hstop, hsince⟩ := hbefore.split_cons
    have hw := sound_run hsound hfirst
    have hstopped := stopped_run (hw.step hstop) hsince (stopped_of_stops hw hstop hstops)
    rw [hgoing] at hstopped
    cases hstopped
  · rintro before l after rfl ⟨call, hcall, hreleases⟩
    obtain ⟨u, v, hbefore, hstep, -⟩ := hrun.split_cons
    have hu := sound_run hsound hbefore
    obtain ⟨hdrain, hlive⟩ := (step_allowed hu.bounded hu.ordered hstep).kept.releases call hcall hreleases
    have hstage : 4 ≤ u.drain.stage := by rw [hdrain]; exact Nat.le_refl _
    refine ⟨u, hbefore, hu.ordered.loop (by omega), ?_, ?_⟩
    · intro task htask hpc
      obtain ⟨n, hn, rfl⟩ := List.getElem_of_mem htask
      have hheld := hu.bounded.slots.held n _ (List.getElem?_eq_getElem hn) (by rw [hpc]; decide)
      rw [hu.ordered.workers hstage] at hheld
      cases hheld
    · rintro first a since rfl hacquires l' hl' hloss
      obtain ⟨w, x, hfirst, hacquired, hsince⟩ := hbefore.split_cons
      have hw := sound_run hsound hfirst
      have hx := hw.step hacquired
      have hsettled := settled_of_acquires hacquired hacquires
      have hdead := (dead_run hx hsince hsettled).2
      rw [hlive] at hdead
      rcases List.mem_cons.mp hl' with rfl | hl'
      · exact absurd (hdead (Or.inl ((step_allowed hw.bounded hw.ordered hacquired).kept.losses hloss).2)) nofun
      · exact absurd (hdead (Or.inr ⟨l', hl', hloss⟩)) nofun

/-- The steps of these events. -/
def perform (c : CoordinatorOptions) (chats : List String) (s : Coordinator) :
    List CoordinatorEvent → Option (List Label × Coordinator)
  | [] => some ([], s)
  | e :: es =>
    match s.step c chats e with
    | none => none
    | some (t, calls) => (perform c chats t es).map fun r => (⟨e, calls⟩ :: r.1, r.2)

theorem exec_of_perform {es : List CoordinatorEvent} {ls : List Label}
    (h : perform c chats s es = some (ls, t)) : Exec (Step c chats) s ls t := by
  induction es generalizing s ls with
  | nil =>
    cases h
    exact .nil
  | cons e es ih =>
    simp only [perform] at h
    split at h
    · cases h
    · next u calls hstep =>
      obtain ⟨⟨ls', t'⟩, hrest, heq⟩ := Option.map_eq_some_iff.mp h
      cases heq
      have hfirst : Step c chats s ⟨e, calls⟩ u := hstep
      exact (Exec.single hfirst).append (ih hrest)

def sampleOptions : CoordinatorOptions := ⟨2, 120000, 100, 1000, 1⟩

def sampleFence : Fence := ⟨"a", "1", 120000⟩

def sampleWork : ClaimedWork where
  streamId := ⟨1, 0⟩
  event := {
    eventId := "e1", messageId := "m1", eventTimestamp := "t", receivedAt := "t", chatSequence := 1
    senderJid := "1", senderAltJid := none, isFromMe := false, chatKind := .group
    chatJid := "1@g.us", canonicalChatJid := "1@g.us", chatSequence_pos := by decide }
  ownership := ⟨sampleFence, sampleFence⟩

/-- A worker settles while the coordinator drains. -/
def sampleDrain : List CoordinatorEvent :=
  [.start (some "id"), .acquired (.resolved (some sampleFence)) (some "o1"),
    .recovered (.resolved (.ok ⟨0, 0⟩ 0 0)) none, .claimed (.resolved (.claimed sampleWork)) (some "o2"),
    .drain, .polled (.resolved ()) none, .drainOn, .drainOn, .settled 0 .fulfilled, .drainOn,
    .finished 0, .drainOn, .beat (.resolved ()), .drainOn]

/-- The drain of the sample releases the lease. -/
theorem coordinator_bounds_of_sampleDrain :
    ∃ ls t, perform sampleOptions ["1@g.us"] initial sampleDrain = some (ls, t) ∧
      (∃ l ∈ ls, .releaseApp sampleFence ∈ l.calls) ∧ (t.running.length : Int) ≤ 2 ∧
      (t.running.map Prod.fst).Nodup := by
  obtain ⟨⟨ls, t⟩, hrun, hrelease⟩ : ∃ r,
      perform sampleOptions ["1@g.us"] initial sampleDrain = some r ∧
        ∃ l ∈ r.1, .releaseApp sampleFence ∈ l.calls := ⟨_, rfl, by decide⟩
  have hcreate : create sampleOptions = .ok initial := rfl
  obtain ⟨⟨-, hsize, hnodup⟩, -⟩ := coordinator_bounds hcreate (exec_of_perform hrun)
  exact ⟨ls, t, hrun, hrelease, hsize, hnodup⟩

end Coordinator

end WhatsAppMcp.Controller.Scheduler
