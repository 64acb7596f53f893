import WhatsAppMcp.Lib.Trace
import WhatsAppMcp.Controller.Domain

/-!
# The lifecycle of the controller

`runLifecycle` of `main.ts`: the three stages of the start, the watch over the bridge, the ways in
which a stop is asked for, and the cleanup.

What the composition does is the environment: when a stage ends and how, what a component reports
meanwhile, who asks for a stop, and which cleanup fails.  `failClosed` of the coordinator may report
and ask for a stop before it returns; what it does is a list of such calls.

The log of a state holds what the lifecycle did, in order.  `Allowed` is the law of the log: what may
come after what.

* `lawful`: the log of every run keeps the law.
* `ready_iff`: the controller is ready between the report `ready` and the first stop.
* `exit_zero_iff`: the exit code is zero where nothing failed.
* `returns`: once a stop is asked for, the lifecycle ends after a bounded number of answers.
-/

namespace WhatsAppMcp.Controller.Lifecycle

open Trace (Exec Preceded)

/-! ## Reports and resources -/

/-- `DiagnosticClass`. -/
inductive DiagnosticClass where
  | error (code : ErrorClass)
  | intakeAccepted
  | intakeDuplicate
  | ready
  | stopped
  deriving DecidableEq, Repr

/-- The fields of `LifecycleResources`. -/
inductive Resource where
  | redis
  | repository
  | host
  | coordinator
  | server
  deriving DecidableEq, Repr

/-- The stages of the start. -/
inductive Stage where
  | prepare
  | waitForBridge
  | startCoordinator
  deriving DecidableEq, Repr

/-- The operations of the cleanup. -/
inductive Cleanup where
  | stopIntake
  | stopScheduling
  | drain
  | closeServer
  | closeHost
  | closeRepository
  | closeRedis
  deriving DecidableEq, Repr

/-- The resource of an operation. -/
def Cleanup.resource : Cleanup → Resource
  | .stopIntake | .closeServer => .server
  | .stopScheduling | .drain => .coordinator
  | .closeHost => .host
  | .closeRepository => .repository
  | .closeRedis => .redis

/-- The report of an operation that fails. -/
def Cleanup.failure : Cleanup → ErrorClass
  | .closeHost => .sessionFailed
  | .closeRepository | .closeRedis => .storeUnavailable
  | _ => .internalFailed

/-- The operations in their order. -/
def cleanups : List Cleanup :=
  [.stopIntake, .stopScheduling, .drain, .closeServer, .closeHost, .closeRepository, .closeRedis]

/-- What the lifecycle does. -/
inductive Effect where
  | stage (stage : Stage)
  | acquire (resource : Resource)
  | stop (code : Nat)
  | failClosed
  | emit (report : DiagnosticClass)
  | cleanup (op : Cleanup)
  deriving DecidableEq, Repr

/-! ## States -/

/-- What the body awaits. -/
inductive Pc where
  | stage (stage : Stage)
  /-- `await termination`. -/
  | running
  /-- `await bridgeMonitor`. -/
  | joining
  | cleaning (op : Cleanup) (rest : List Cleanup)
  | returned (code : Nat)
  deriving DecidableEq, Repr

inductive Monitor where
  | unstarted
  | watching
  | ended
  deriving DecidableEq, Repr

structure State where
  operational : Bool
  shuttingDown : Bool
  stopRequested : Bool
  exitCode : Nat
  /-- `startup.signal` is aborted. -/
  aborted : Bool
  failClosedInvoked : Bool
  leaseLossReported : Bool
  resources : Resource → Bool
  monitor : Monitor
  pc : Pc
  log : List Effect

/-- The first stage has been called. -/
def State.initial : State :=
  ⟨false, false, false, 0, false, false, false, fun _ => false, .unstarted, .stage .prepare, [.stage .prepare]⟩

def State.record (s : State) (e : Effect) : State := { s with log := s.log ++ [e] }

/-- `isReady` of the context. -/
def State.isReady (s : State) (redisReady : Bool) : Bool :=
  s.operational && s.resources .redis && redisReady

/-! ## Reports and stops -/

/-- `requestStop`. -/
def State.requestStop (s : State) (code : Nat) : State :=
  ({ s with operational := false, stopRequested := true, exitCode := max s.exitCode code, aborted := true } :
    State).record (.stop code)

/-- The reports that make the exit code 1 during the cleanup. -/
def fatal : DiagnosticClass → Bool
  | .error .internalFailed | .error .sessionFailed | .error .storeUnavailable => true
  | _ => false

/-- `emit` of a report that is not `lease_lost`. -/
def State.emitOther (s : State) (c : DiagnosticClass) : State :=
  ({ s with exitCode := if s.shuttingDown && fatal c then 1 else s.exitCode } : State).record (.emit c)

/-- What `failClosed` of the coordinator calls before it returns. -/
inductive Reentry where
  | report (code : ErrorClass)
  | requestStop (code : Nat)
  deriving DecidableEq, Repr

/-- A call out of `failClosed`, while `failClosedInProgress` is set. -/
def State.reenter (s : State) : Reentry → State
  | .report .leaseLost => s
  | .report code => s.emitOther (.error code)
  | .requestStop code => s.requestStop code

/-- `failClosedOnce`. -/
def State.failClosedOnce (s : State) (inside : List Reentry) : State :=
  let s := { s with operational := false }
  if s.failClosedInvoked then s
  else
    let s := { s with failClosedInvoked := true }
    let s := if s.resources .coordinator then inside.foldl State.reenter (s.record .failClosed) else s
    s.requestStop 1

/-- `emit` of `lifecycleDiagnostics`. -/
def State.emit (s : State) (code : ErrorClass) (inside : List Reentry) : State :=
  if code = .leaseLost then
    if s.leaseLossReported then s
    else
      ({ s.failClosedOnce inside with leaseLossReported := true } : State).record (.emit (.error .leaseLost))
  else s.emitOther (.error code)

/-! ## The body -/

/-- The cleanup from an operation on.  The operation of a resource that was never acquired is left
out, and the last one is followed by the report `stopped`. -/
def State.cleanUp (s : State) : List Cleanup → State
  | [] => { s.emitOther .stopped with pc := .returned s.exitCode }
  | op :: rest =>
    { (if s.resources op.resource then s.record (.cleanup op) else s) with pc := .cleaning op rest }

/-- The `finally` block. -/
def State.finish (s : State) : State :=
  ({ s with shuttingDown := true, operational := false, aborted := true } : State).cleanUp cleanups

/-- What a promise rejects with: the code of a `ControllerError`, or another error. -/
abbrev Thrown := Option ErrorClass

/-- An `intake_closed` after a stop is expected. -/
def State.expects (s : State) (thrown : Thrown) : Bool := s.stopRequested && thrown = some .intakeClosed

/-- The `catch` block. -/
def State.fail (s : State) (thrown : Thrown) (inside : List Reentry) : State :=
  if s.expects thrown then s.finish
  else ({ s.emit (thrown.getD .internalFailed) inside with exitCode := 1 } : State).finish

/-- After a stage: `ensureRunning`, and the next one. -/
def State.stageEnds (s : State) (stage : Stage) : State :=
  if s.stopRequested || s.shuttingDown then s.fail (some .intakeClosed) []
  else match stage with
    | .prepare => { s.record (.stage .waitForBridge) with pc := .stage .waitForBridge }
    | .waitForBridge => { s.record (.stage .startCoordinator) with pc := .stage .startCoordinator }
    | .startCoordinator =>
      { ({ s with operational := true } : State).emitOther .ready with monitor := .watching, pc := .running }

/-- The watch may end without an error only after a stop. -/
def State.expectsEnd (s : State) : Option Thrown → Bool
  | none => s.stopRequested
  | some thrown => s.expects thrown

/-- The end of `monitorBridge`. -/
def State.monitorEnds (s : State) (thrown : Option Thrown) (inside : List Reentry) : State :=
  if s.expectsEnd thrown then { s with monitor := .ended }
  else { (s.failClosedOnce inside).emit .leaseLost [] with monitor := .ended }

/-! ## Steps -/

/-- What the environment does.  A stage or the watch ends with `none`, or it throws. -/
inductive Event where
  | acquire (resource : Resource)
  | signal
  | requestStop (code : Nat)
  | report (code : ErrorClass) (inside : List Reentry)
  | intake (duplicate : Bool)
  | stageEnds (thrown : Option Thrown) (inside : List Reentry)
  | terminated
  | monitorEnds (thrown : Option Thrown) (inside : List Reentry)
  | joined
  | cleanupEnds (failed : Bool)
  deriving DecidableEq, Repr

def Pc.ended : Pc → Bool
  | .returned _ => true
  | _ => false

/-- The `finally` block has begun, and the signals are off. -/
def Pc.finished : Pc → Bool
  | .cleaning _ _ | .returned _ => true
  | _ => false

/-- One step.  Nothing happens after the return. -/
def State.step (s : State) : Event → Option State
  | .acquire r =>
    match s.pc with
    | .stage _ => some (({ s with resources := fun q => q = r || s.resources q } : State).record (.acquire r))
    | _ => none
  | .signal => if s.pc.finished then none else some (s.requestStop 0)
  | .requestStop code => if s.pc.ended then none else some (s.requestStop code)
  | .report code inside => if s.pc.ended then none else some (s.emit code inside)
  | .intake duplicate =>
    if s.pc.ended then none else some (s.emitOther (if duplicate then .intakeDuplicate else .intakeAccepted))
  | .stageEnds thrown inside =>
    match s.pc, thrown with
    | .stage stage, none => some (s.stageEnds stage)
    | .stage _, some thrown => some (s.fail thrown inside)
    | _, _ => none
  | .terminated => if s.pc = .running ∧ s.stopRequested then some { s with pc := .joining } else none
  | .monitorEnds thrown inside => if s.monitor = .watching then some (s.monitorEnds thrown inside) else none
  | .joined => if s.pc = .joining ∧ s.monitor = .ended then some s.finish else none
  | .cleanupEnds failed =>
    match s.pc with
    | .cleaning op rest =>
      if failed then
        if s.resources op.resource then
          some ((({ s with exitCode := 1 } : State).emitOther (.error op.failure)).cleanUp rest)
        else none
      else some (s.cleanUp rest)
    | _ => none

/-- A run of the lifecycle. -/
def Step (s : State) (e : Event) (t : State) : Prop := s.step e = some t

/-! ## The law of the log -/

def Effect.stage? : Effect → Option Stage
  | .stage st => some st
  | _ => none

def Effect.cleanup? : Effect → Option Cleanup
  | .cleanup op => some op
  | _ => none

/-- The stages that a log holds. -/
def stages (log : List Effect) : List Stage := log.filterMap Effect.stage?

/-- The cleanups that a log holds. -/
def cleaned (log : List Effect) : List Cleanup := log.filterMap Effect.cleanup?

/-- A stop was asked for. -/
def Stopped (log : List Effect) : Prop := ∃ code, .stop code ∈ log

/-- The cleanups of what was acquired, in their order. -/
def due (log : List Effect) : List Cleanup := cleanups.filter fun op => .acquire op.resource ∈ log

/-- The stages in their order. -/
def allStages : List Stage := [.prepare, .waitForBridge, .startCoordinator]

/-- What the lifecycle may do after what it did. -/
def Allowed (past : List Effect) (e : Effect) : Prop :=
  .emit .stopped ∉ past ∧ match e with
    | .stage st => stages past ++ [st] <+: allStages ∧ ¬ Stopped past
    | .acquire _ => cleaned past = []
    | .stop _ => True
    | .failClosed => .failClosed ∉ past ∧ .acquire .coordinator ∈ past
    | .emit .ready => stages past = allStages ∧ .emit .ready ∉ past ∧ ¬ Stopped past
    | .emit (.error .leaseLost) => .emit (.error .leaseLost) ∉ past ∧ (∃ code, code ≠ 0 ∧ .stop code ∈ past) ∧
      (.acquire .coordinator ∈ past → .failClosed ∈ past)
    | .emit .stopped => cleaned past = due past
    | .emit _ => True
    | .cleanup op => cleaned past ++ [op] <+: due past

/-- The state agrees with its log. -/
structure State.Core (s : State) : Prop where
  law : Preceded Allowed s.log
  stops : s.stopRequested = true ↔ Stopped s.log
  acquired : ∀ r, s.resources r = true ↔ .acquire r ∈ s.log
  reported : s.leaseLossReported = true ↔ .emit (.error .leaseLost) ∈ s.log
  unfailed : s.failClosedInvoked = false → .failClosed ∉ s.log
  unstopped : s.operational = true → s.stopRequested = false

/-- An effect of a report or of a stop. -/
def Effect.said : Effect → Bool
  | .stop _ | .failClosed => true
  | .emit .ready | .emit .stopped => false
  | .emit _ => true
  | _ => false

/-- Reports and stops: the body stays where it is. -/
structure Talks (s t : State) : Prop where
  pc : t.pc = s.pc
  monitor : t.monitor = s.monitor
  shuttingDown : t.shuttingDown = s.shuttingDown
  resources : t.resources = s.resources
  operational : t.operational = true → s.operational = true
  stopRequested : s.stopRequested = true → t.stopRequested = true
  kept : t.stopRequested = false → t.operational = s.operational
  exitCode : s.exitCode ≠ 0 → t.exitCode ≠ 0
  log : ∃ new, t.log = s.log ++ new ∧ ∀ e ∈ new, e.said = true

theorem Talks.refl (s : State) : Talks s s := 
  ⟨rfl, rfl, rfl, rfl, id, id, fun _ => rfl, id, [], (List.append_nil _).symm, nofun⟩

theorem Talks.trans {s t u : State} (h : Talks s t) (h' : Talks t u) : Talks s u := by
  obtain ⟨new, hnew, hsaid⟩ := h.log
  obtain ⟨new', hnew', hsaid'⟩ := h'.log
  refine ⟨h'.pc.trans h.pc, h'.monitor.trans h.monitor, h'.shuttingDown.trans h.shuttingDown,
    h'.resources.trans h.resources, h.operational ∘ h'.operational, h'.stopRequested ∘ h.stopRequested,
    fun hu => (h'.kept hu).trans (h.kept (Bool.eq_false_of_not_eq_true fun ht => ?_)),
    h'.exitCode ∘ h.exitCode, new ++ new', by rw [hnew', hnew, List.append_assoc], fun e he => ?_⟩
  · simp [h'.stopRequested ht] at hu
  · rcases List.mem_append.mp he with he | he
    · exact hsaid e he
    · exact hsaid' e he

section Talks

variable {s t : State} (h : Talks s t)
include h

theorem Talks.mem_iff {e : Effect} (he : e.said = false) : e ∈ t.log ↔ e ∈ s.log := by
  obtain ⟨new, hnew, hsaid⟩ := h.log
  rw [hnew, List.mem_append]
  refine or_iff_left fun hmem => ?_
  rw [hsaid e hmem] at he
  cases he

theorem Talks.stages_eq : stages t.log = stages s.log := by
  obtain ⟨new, hnew, hsaid⟩ := h.log
  have hnone : new.filterMap Effect.stage? = [] := by
    rw [List.filterMap_eq_nil_iff]
    intro e he
    have hsaid := hsaid e he
    cases e with
    | stage => cases hsaid
    | _ => rfl
  rw [hnew, stages, List.filterMap_append, hnone, List.append_nil, stages]

theorem Talks.cleaned_eq : cleaned t.log = cleaned s.log := by
  obtain ⟨new, hnew, hsaid⟩ := h.log
  have hnone : new.filterMap Effect.cleanup? = [] := by
    rw [List.filterMap_eq_nil_iff]
    intro e he
    have hsaid := hsaid e he
    cases e with
    | cleanup => cases hsaid
    | _ => rfl
  rw [hnew, cleaned, List.filterMap_append, hnone, List.append_nil, cleaned]

end Talks

/-! ## What a report does -/

variable {s t : State} {inside : List Reentry}

theorem talks_requestStop (s : State) (code : Nat) : Talks s (s.requestStop code) :=
  ⟨rfl, rfl, rfl, rfl, nofun, fun _ => rfl, nofun, fun h => by simp [State.requestStop, State.record]; omega, [_],
    rfl, by simp [Effect.said]⟩

theorem talks_emitOther (s : State) {c : DiagnosticClass} (hc : (Effect.emit c).said = true) :
    Talks s (s.emitOther c) :=
  ⟨rfl, rfl, rfl, rfl, id, id, fun _ => rfl, fun h => by simp only [State.emitOther, State.record]; split <;> omega,
    [_], rfl, by simpa using hc⟩

theorem core_requestStop (h : s.Core) (hopen : .emit .stopped ∉ s.log) (code : Nat) :
    (s.requestStop code).Core where
  law := h.law.concat ⟨hopen, trivial⟩
  stops := ⟨fun _ => ⟨code, List.mem_append_right _ (List.mem_singleton_self _)⟩, fun _ => rfl⟩
  acquired r := (h.acquired r).trans (by simp [State.requestStop, State.record])
  reported := h.reported.trans (by simp [State.requestStop, State.record])
  unfailed hnot hmem := h.unfailed hnot (by simpa [State.requestStop, State.record] using hmem)
  unstopped := nofun

/-- The effects that no field of the state records. -/
def Effect.unrecorded : Effect → Bool
  | .stage _ | .cleanup _ => true
  | .emit (.error .leaseLost) => false
  | .emit _ => true
  | _ => false

theorem State.Core.record (h : s.Core) {e : Effect} (he : e.unrecorded = true) (hallowed : Allowed s.log e) :
    (s.record e).Core where
  law := h.law.concat hallowed
  stops := h.stops.trans (by cases e <;> simp_all [Stopped, State.record, Effect.unrecorded])
  acquired r := (h.acquired r).trans (by cases e <;> simp_all [State.record, Effect.unrecorded])
  reported := by
    refine h.reported.trans ?_
    have hne : Effect.emit (.error .leaseLost) ≠ e := by
      rintro rfl
      cases he
    simp [State.record, hne]
  unfailed hnot hmem := by
    refine h.unfailed hnot ?_
    cases e <;> simp_all [State.record, Effect.unrecorded]
  unstopped := h.unstopped

theorem core_emitOther (h : s.Core) {c : DiagnosticClass} (hc : (Effect.emit c).unrecorded = true)
    (hallowed : Allowed s.log (.emit c)) : (s.emitOther c).Core :=
  State.Core.record (s := { s with exitCode := if s.shuttingDown && fatal c then 1 else s.exitCode })
    ⟨h.law, h.stops, h.acquired, h.reported, h.unfailed, h.unstopped⟩ hc hallowed

/-- Any other report is allowed. -/
theorem allowed_error (hopen : .emit .stopped ∉ s.log) {code : ErrorClass} (hcode : code ≠ .leaseLost) :
    (Effect.emit (.error code)).unrecorded = true ∧ Allowed s.log (.emit (.error code)) := by
  cases code with
  | leaseLost => exact absurd rfl hcode
  | _ => exact ⟨rfl, hopen, trivial⟩

/-- A call out of `failClosed` is a report or a stop. -/
theorem reenter_spec (h : s.Core) (hopen : .emit .stopped ∉ s.log) (r : Reentry) :
    Talks s (s.reenter r) ∧ (s.reenter r).Core ∧
      (s.reenter r).failClosedInvoked = s.failClosedInvoked ∧
      (s.reenter r).leaseLossReported = s.leaseLossReported := by
  match r with
  | .requestStop code => exact ⟨talks_requestStop s code, core_requestStop h hopen code, rfl, rfl⟩
  | .report code =>
    by_cases hcode : code = .leaseLost
    · subst hcode
      exact ⟨.refl s, h, rfl, rfl⟩
    · have heq : s.reenter (.report code) = s.emitOther (.error code) := by
        cases code <;> first | rfl | exact absurd rfl hcode
      obtain ⟨hunrecorded, hallowed⟩ := allowed_error hopen hcode
      rw [heq]
      exact ⟨talks_emitOther s rfl, core_emitOther h hunrecorded hallowed, rfl, rfl⟩

theorem reenter_foldl (h : s.Core) (hopen : .emit .stopped ∉ s.log) (inside : List Reentry) :
    Talks s (inside.foldl State.reenter s) ∧ (inside.foldl State.reenter s).Core ∧
      (inside.foldl State.reenter s).failClosedInvoked = s.failClosedInvoked ∧
      (inside.foldl State.reenter s).leaseLossReported = s.leaseLossReported := by
  induction inside generalizing s with
  | nil => exact ⟨.refl s, h, rfl, rfl⟩
  | cons r inside ih =>
    obtain ⟨htalks, hcore, hinvoked, hreported⟩ := reenter_spec h hopen r
    obtain ⟨htalks', hcore', hinvoked', hreported'⟩ := ih hcore (by rwa [htalks.mem_iff rfl])
    exact ⟨htalks.trans htalks', hcore', hinvoked'.trans hinvoked, hreported'.trans hreported⟩

/-- `failClosedOnce` and the report `lease_lost` go together, and with them a stop. -/
structure State.Agrees (s : State) : Prop where
  reported : s.leaseLossReported = s.failClosedInvoked
  stopped : s.failClosedInvoked = true → s.stopRequested = true
  failed : s.failClosedInvoked = true → s.exitCode ≠ 0

/-- `failClosedOnce` stops the coordinator, the first time that it is called. -/
theorem failClosedOnce_spec (h : s.Core) (hopen : .emit .stopped ∉ s.log) (hagree : s.Agrees)
    (inside : List Reentry) :
    Talks s (s.failClosedOnce inside) ∧ (s.failClosedOnce inside).Core ∧
      (s.failClosedOnce inside).failClosedInvoked = true ∧
      (s.failClosedOnce inside).leaseLossReported = s.leaseLossReported ∧
      (s.failClosedOnce inside).stopRequested = true ∧ (s.failClosedOnce inside).exitCode ≠ 0 ∧
      (s.failClosedInvoked = false → (∃ code, code ≠ 0 ∧ .stop code ∈ (s.failClosedOnce inside).log) ∧
        (.acquire .coordinator ∈ (s.failClosedOnce inside).log → .failClosed ∈ (s.failClosedOnce inside).log)) := by
  unfold State.failClosedOnce
  dsimp only
  split
  · next hinvoked =>
    refine ⟨⟨rfl, rfl, rfl, rfl, nofun, id, fun hrunning => ?_, id, [], (List.append_nil _).symm, nofun⟩,
      ⟨h.law, h.stops, h.acquired, h.reported, h.unfailed, nofun⟩, hinvoked, rfl, hagree.stopped hinvoked,
      hagree.failed hinvoked, fun hnot => ?_⟩
    · exact absurd (hagree.stopped hinvoked) (by simpa using hrunning)
    · rw [hinvoked] at hnot
      cases hnot
  · next hnot =>
    have hnot := Bool.eq_false_of_not_eq_true hnot
    -- the coordinator is called, and calls back
    generalize hcalled : (if s.resources .coordinator then _ else _ : State) = called
    have hspec : Talks { s with operational := false } called ∧ called.Core ∧ called.failClosedInvoked = true ∧
        called.leaseLossReported = s.leaseLossReported ∧
        (.acquire .coordinator ∈ s.log → .failClosed ∈ called.log) := by
      subst hcalled
      split
      · next hthere =>
        have hcoordinator := (h.acquired .coordinator).mp hthere
        have hrecorded : (({ s with operational := false, failClosedInvoked := true } : State).record
            .failClosed).Core :=
          ⟨h.law.concat ⟨hopen, h.unfailed hnot, hcoordinator⟩,
            h.stops.trans (by simp [Stopped, State.record]), fun r => (h.acquired r).trans (by simp [State.record]),
            h.reported.trans (by simp [State.record]), nofun, nofun⟩
        have hopen' : .emit .stopped ∉ (({ s with operational := false, failClosedInvoked := true } : State).record
            .failClosed).log := by simpa [State.record] using hopen
        obtain ⟨htalks, hcore, hinvoked, hreported⟩ := reenter_foldl hrecorded hopen' inside
        have hfirst : Talks { s with operational := false }
            (({ s with operational := false, failClosedInvoked := true } : State).record .failClosed) :=
          ⟨rfl, rfl, rfl, rfl, nofun, id, fun _ => rfl, id, [_], rfl, by simp [Effect.said]⟩
        refine ⟨hfirst.trans htalks, hcore, hinvoked, hreported, fun _ => ?_⟩
        obtain ⟨new, hnew, -⟩ := htalks.log
        rw [hnew]
        exact List.mem_append_left _ (List.mem_append_right _ (List.mem_singleton_self _))
      · next hnone =>
        refine ⟨⟨rfl, rfl, rfl, rfl, nofun, id, fun _ => rfl, id, [], (List.append_nil _).symm, nofun⟩,
          ⟨h.law, h.stops, h.acquired, h.reported, nofun, nofun⟩, rfl, rfl, fun hmem => ?_⟩
        exact absurd ((h.acquired .coordinator).mpr hmem) hnone
    obtain ⟨htalks, hcore, hinvoked, hreported, hfailed⟩ := hspec
    have hopen' : .emit .stopped ∉ called.log := by rwa [htalks.mem_iff rfl]
    have hboth := htalks.trans (talks_requestStop called 1)
    refine ⟨⟨hboth.pc, hboth.monitor, hboth.shuttingDown, hboth.resources, nofun, hboth.stopRequested, nofun,
        hboth.exitCode, hboth.log⟩, core_requestStop hcore hopen' 1, hinvoked, hreported, rfl, ?_,
      fun _ => ⟨⟨1, Nat.one_ne_zero, List.mem_append_right _ (List.mem_singleton_self _)⟩, fun hmem => ?_⟩⟩
    · simp only [State.requestStop, State.record]
      omega
    · refine List.mem_append_left _ (hfailed ?_)
      rwa [hboth.mem_iff rfl] at hmem

/-- The report `lease_lost`, behind `failClosedOnce`. -/
theorem core_lost (h : s.Core) (hopen : .emit .stopped ∉ s.log) (hreported : s.leaseLossReported = false)
    (hlost : (∃ code, code ≠ 0 ∧ .stop code ∈ s.log) ∧ (.acquire .coordinator ∈ s.log → .failClosed ∈ s.log)) :
    Talks s (({ s with leaseLossReported := true } : State).record (.emit (.error .leaseLost))) ∧
      (({ s with leaseLossReported := true } : State).record (.emit (.error .leaseLost))).Core := by
  refine ⟨⟨rfl, rfl, rfl, rfl, id, id, fun _ => rfl, id, [_], rfl, by simp [Effect.said]⟩, ?_, h.stops.trans (by simp [Stopped, State.record]),
    fun r => (h.acquired r).trans (by simp [State.record]), by simp [State.record],
    fun hnot hmem => h.unfailed hnot (by simpa [State.record] using hmem), h.unstopped⟩
  refine h.law.concat ⟨hopen, fun hmem => ?_, hlost.1, hlost.2⟩
  rw [h.reported.mpr hmem] at hreported
  cases hreported

/-- Every report leaves the body where it is, and `lease_lost` is reported with its stop. -/
theorem emit_spec (h : s.Core) (hopen : .emit .stopped ∉ s.log) (hagree : s.Agrees) (code : ErrorClass)
    (inside : List Reentry) :
    Talks s (s.emit code inside) ∧ (s.emit code inside).Core ∧ (s.emit code inside).Agrees := by
  unfold State.emit
  split
  · split
    · exact ⟨.refl s, h, hagree⟩
    · next hreported =>
      have hreported := Bool.eq_false_of_not_eq_true hreported
      obtain ⟨htalks, hcore, hinvoked, hsame, hstop, hcode, hlost⟩ := failClosedOnce_spec h hopen hagree inside
      have hopen' : .emit .stopped ∉ (s.failClosedOnce inside).log := by rwa [htalks.mem_iff rfl]
      obtain ⟨htalks', hcore'⟩ := core_lost hcore hopen' (hsame.trans hreported)
        (hlost (hagree.reported ▸ hreported))
      exact ⟨htalks.trans htalks', hcore', hinvoked.symm, fun _ => hstop, fun _ => hcode⟩
  · next hcode =>
    obtain ⟨hunrecorded, hallowed⟩ := allowed_error hopen hcode
    have htalks := talks_emitOther s (c := .error code) rfl
    exact ⟨htalks, core_emitOther h hunrecorded hallowed, hagree.reported, hagree.stopped,
      htalks.exitCode ∘ hagree.failed⟩

/-- The end of the watch over the bridge. -/
theorem failClosed_emit_spec (h : s.Core) (hopen : .emit .stopped ∉ s.log) (hagree : s.Agrees)
    (inside : List Reentry) :
    Talks s ((s.failClosedOnce inside).emit .leaseLost []) ∧ ((s.failClosedOnce inside).emit .leaseLost []).Core ∧
      ((s.failClosedOnce inside).emit .leaseLost []).Agrees ∧
      ((s.failClosedOnce inside).emit .leaseLost []).stopRequested = true ∧
      ((s.failClosedOnce inside).emit .leaseLost []).exitCode ≠ 0 := by
  obtain ⟨htalks, hcore, hinvoked, hsame, hstop, hcode, hlost⟩ := failClosedOnce_spec h hopen hagree inside
  have hopen' : .emit .stopped ∉ (s.failClosedOnce inside).log := by rwa [htalks.mem_iff rfl]
  cases hreported : s.leaseLossReported with
  | true =>
    have hnow := hsame.trans hreported
    have heq : (s.failClosedOnce inside).emit .leaseLost [] = s.failClosedOnce inside := by
      unfold State.emit
      rw [if_pos rfl, if_pos hnow]
    rw [heq]
    exact ⟨htalks, hcore, ⟨hnow.trans hinvoked.symm, fun _ => hstop, fun _ => hcode⟩, hstop, hcode⟩
  | false =>
    have hnow := hsame.trans hreported
    have hsecond : (s.failClosedOnce inside).failClosedOnce [] =
        { s.failClosedOnce inside with operational := false } := by
      rw [State.failClosedOnce]
      simp [hinvoked]
    have heq : (s.failClosedOnce inside).emit .leaseLost [] =
        ({ ({ s.failClosedOnce inside with operational := false } : State) with leaseLossReported := true } :
          State).record (.emit (.error .leaseLost)) := by
      unfold State.emit
      rw [if_pos rfl, if_neg (by simp [hnow]), hsecond]
    have hdown : ({ s.failClosedOnce inside with operational := false } : State).Core :=
      ⟨hcore.law, hcore.stops, hcore.acquired, hcore.reported, hcore.unfailed, nofun⟩
    have htalksDown : Talks s { s.failClosedOnce inside with operational := false } :=
      ⟨htalks.pc, htalks.monitor, htalks.shuttingDown, htalks.resources, nofun, htalks.stopRequested,
        fun hrunning => by simp [hstop] at hrunning, htalks.exitCode, htalks.log⟩
    obtain ⟨htalks', hcore'⟩ := core_lost hdown hopen' hnow (hlost (hagree.reported ▸ hreported))
    rw [heq]
    exact ⟨htalksDown.trans htalks', hcore', ⟨hinvoked.symm, fun _ => hstop, fun _ => hcode⟩, hstop, hcode⟩

/-! ## Where the body stands -/

/-- The stages up to one. -/
def Stage.upTo : Stage → List Stage
  | .prepare => [.prepare]
  | .waitForBridge => [.prepare, .waitForBridge]
  | .startCoordinator => allStages

/-- The cleanups of what is there. -/
def State.present (s : State) (ops : List Cleanup) : List Cleanup := ops.filter fun op => s.resources op.resource

/-- The place of the body, with what its log holds. -/
def State.Placed (s : State) : Prop :=
  match s.pc with
  | .stage st => .emit .stopped ∉ s.log ∧ cleaned s.log = [] ∧ s.shuttingDown = false ∧ s.operational = false ∧
    s.monitor = .unstarted ∧ stages s.log = st.upTo ∧ .emit .ready ∉ s.log
  | .running => .emit .stopped ∉ s.log ∧ cleaned s.log = [] ∧ s.shuttingDown = false ∧ s.monitor ≠ .unstarted ∧
    .emit .ready ∈ s.log ∧ (s.stopRequested = false → s.operational = true) ∧
    (s.monitor = .ended → s.stopRequested = true)
  | .joining => .emit .stopped ∉ s.log ∧ cleaned s.log = [] ∧ s.shuttingDown = false ∧ s.monitor ≠ .unstarted ∧
    s.stopRequested = true
  | .cleaning op rest => .emit .stopped ∉ s.log ∧ s.shuttingDown = true ∧ s.operational = false ∧
    s.monitor ≠ .watching ∧ (.emit .ready ∈ s.log → s.stopRequested = true) ∧
    ∃ done, cleanups = done ++ op :: rest ∧ cleaned s.log = s.present (done ++ [op])
  | .returned code => s.exitCode = code ∧ s.operational = false ∧ s.monitor ≠ .watching ∧
    (.emit .ready ∈ s.log → s.stopRequested = true) ∧ cleaned s.log = s.present cleanups ∧
    ∃ before, s.log = before ++ [.emit .stopped]

/-- What holds of every state that is reached. -/
structure State.Inv (s : State) : Prop where
  core : s.Core
  placed : s.Placed
  agree : s.Agrees

theorem inv_initial : State.initial.Inv where
  core := by
    refine ⟨?_, ⟨nofun, fun ⟨_, hcode⟩ => by simp [State.initial] at hcode⟩, fun r => by simp [State.initial],
      by simp [State.initial], fun _ => by simp [State.initial], nofun⟩
    have hfirst : Allowed [] (.stage .prepare) := ⟨List.not_mem_nil, by decide, fun ⟨_, hcode⟩ => by cases hcode⟩
    exact Trace.preceded_nil.concat hfirst
  placed := by simp [State.Placed, State.initial, cleaned, stages, Stage.upTo, Effect.cleanup?, Effect.stage?]
  agree := ⟨rfl, nofun, nofun⟩

theorem State.Core.due_eq (h : s.Core) : due s.log = s.present cleanups := by
  unfold due State.present
  congr 1
  funext op
  rw [Bool.eq_iff_iff, decide_eq_true_iff]
  exact (h.acquired op.resource).symm

/-- The same fields, beside what `Core` does not speak of. -/
theorem State.Core.congr (h : s.Core) (hlog : t.log = s.log) (hstop : t.stopRequested = s.stopRequested)
    (hresources : t.resources = s.resources) (hreported : t.leaseLossReported = s.leaseLossReported)
    (hinvoked : t.failClosedInvoked = s.failClosedInvoked)
    (hoperational : t.operational = true → s.operational = true) : t.Core where
  law := hlog ▸ h.law
  stops := by rw [hstop, hlog, h.stops]
  acquired r := by rw [hresources, hlog, h.acquired]
  reported := by rw [hreported, hlog, h.reported]
  unfailed hnot := by
    rw [hlog]
    exact h.unfailed (hinvoked ▸ hnot)
  unstopped hup := hstop.trans (h.unstopped (hoperational hup))

theorem State.Agrees.congr (h : s.Agrees) (hreported : t.leaseLossReported = s.leaseLossReported)
    (hinvoked : t.failClosedInvoked = s.failClosedInvoked) (hstop : t.stopRequested = s.stopRequested)
    (hexit : t.exitCode = s.exitCode) : t.Agrees :=
  ⟨by rw [hreported, hinvoked, h.reported], fun hi => hstop ▸ h.stopped (hinvoked ▸ hi),
    fun hi => hexit ▸ h.failed (hinvoked ▸ hi)⟩

theorem State.Agrees.talks (h : s.Agrees) (htalks : Talks s t) (hreported : t.leaseLossReported = s.leaseLossReported)
    (hinvoked : t.failClosedInvoked = s.failClosedInvoked) : t.Agrees :=
  ⟨by rw [hreported, hinvoked, h.reported], fun hi => htalks.stopRequested (h.stopped (hinvoked ▸ hi)),
    fun hi => htalks.exitCode (h.failed (hinvoked ▸ hi))⟩

theorem State.Inv.opened (h : s.Inv) (hpc : s.pc.ended = false) : .emit .stopped ∉ s.log := by
  have hplaced := h.placed
  unfold State.Placed at hplaced
  cases hs : s.pc with
  | returned => simp [hs, Pc.ended] at hpc
  | stage | running | joining | cleaning =>
    rw [hs] at hplaced
    exact hplaced.1

/-- A report leaves the body at its place. -/
theorem placed_talks (hpc : s.pc.ended = false) (h : s.Placed) (htalks : Talks s t) : t.Placed := by
  have hstopped : .emit .stopped ∉ s.log → .emit .stopped ∉ t.log := (htalks.mem_iff rfl).not.mpr
  have hready : .emit .ready ∈ t.log ↔ .emit .ready ∈ s.log := htalks.mem_iff rfl
  have hcleaned := htalks.cleaned_eq
  have hoperational : s.operational = false → t.operational = false := fun hdown =>
    Bool.eq_false_of_not_eq_true fun hup => absurd (htalks.operational hup) (by simp [hdown])
  unfold State.Placed at h ⊢
  rw [htalks.pc]
  cases hs : s.pc with
  | returned => simp [hs, Pc.ended] at hpc
  | stage st =>
    rw [hs] at h
    obtain ⟨hopen, hclean, hdown, hidle, hmonitor, hstages, hunready⟩ := h
    exact ⟨hstopped hopen, hcleaned.trans hclean, htalks.shuttingDown.trans hdown, hoperational hidle,
      htalks.monitor.trans hmonitor, htalks.stages_eq.trans hstages, hready.not.mpr hunready⟩
  | running =>
    rw [hs] at h
    obtain ⟨hopen, hclean, hdown, hmonitor, hthere, hup, hended⟩ := h
    refine ⟨hstopped hopen, hcleaned.trans hclean, htalks.shuttingDown.trans hdown, htalks.monitor ▸ hmonitor,
      hready.mpr hthere, fun hrunning => (htalks.kept hrunning).trans (hup ?_),
      fun hmonitor => htalks.stopRequested (hended (htalks.monitor ▸ hmonitor))⟩
    exact Bool.eq_false_of_not_eq_true fun hstop => by simp [htalks.stopRequested hstop] at hrunning
  | joining =>
    rw [hs] at h
    obtain ⟨hopen, hclean, hdown, hmonitor, hstop⟩ := h
    exact ⟨hstopped hopen, hcleaned.trans hclean, htalks.shuttingDown.trans hdown, htalks.monitor ▸ hmonitor,
      htalks.stopRequested hstop⟩
  | cleaning op rest =>
    rw [hs] at h
    obtain ⟨hopen, hdown, hidle, hmonitor, hstop, done, hsplit, hclean⟩ := h
    exact ⟨hstopped hopen, htalks.shuttingDown.trans hdown, hoperational hidle, htalks.monitor ▸ hmonitor,
      fun hthere => htalks.stopRequested (hstop (hready.mp hthere)), done, hsplit,
      by rw [hcleaned, hclean, State.present, State.present, htalks.resources]⟩

theorem State.Inv.talks (h : s.Inv) (hpc : s.pc.ended = false) (htalks : Talks s t) (hcore : t.Core)
    (hagree : t.Agrees) : t.Inv :=
  ⟨hcore, placed_talks hpc h.placed htalks, hagree⟩

/-- The cleanup goes on with its next operation, or ends. -/
theorem inv_cleanUp (h : s.Core) (hagree : s.Agrees) (hopen : .emit .stopped ∉ s.log) (hdown : s.shuttingDown = true)
    (hidle : s.operational = false) (hmonitor : s.monitor ≠ .watching)
    (hready : .emit .ready ∈ s.log → s.stopRequested = true) {done rest : List Cleanup}
    (hsplit : cleanups = done ++ rest) (hclean : cleaned s.log = s.present done) : (s.cleanUp rest).Inv := by
  cases rest with
  | nil =>
    rw [List.append_nil] at hsplit
    rw [← hsplit] at hclean
    have htalks : s.exitCode = (s.emitOther .stopped).exitCode := by
      simp [State.emitOther, State.record, fatal]
    have hcore := core_emitOther h (c := .stopped) rfl ⟨hopen, hclean.trans h.due_eq.symm⟩
    refine ⟨hcore.congr rfl rfl rfl rfl rfl id, ⟨htalks.symm, hidle, hmonitor, ?_, ?_, s.log, rfl⟩,
      hagree.reported, hagree.stopped, fun hinvoked => htalks ▸ hagree.failed hinvoked⟩
    · exact fun hthere => hready (by simpa [State.cleanUp, State.emitOther, State.record] using hthere)
    · have hsame : cleaned (s.log ++ [.emit .stopped]) = cleaned s.log := by
        simp [cleaned, List.filterMap_append, Effect.cleanup?]
      exact hsame.trans hclean
  | cons op rest =>
    by_cases hthere : s.resources op.resource = true
    · have hdone : s.present (done ++ [op]) = s.present done ++ [op] := by
        simp [State.present, List.filter_append, hthere]
      have hnext : cleaned (s.log ++ [.cleanup op]) = s.present (done ++ [op]) := by
        rw [hdone, ← hclean, cleaned, List.filterMap_append]
        rfl
      have hcore : (s.record (.cleanup op)).Core := by
        refine h.record rfl ⟨hopen, ?_⟩
        show cleaned s.log ++ [op] <+: due s.log
        rw [h.due_eq, hsplit, hclean, ← hdone, List.append_cons done op rest]
        exact (List.prefix_append _ _).filter _
      rw [State.cleanUp, if_pos hthere]
      exact ⟨hcore.congr rfl rfl rfl rfl rfl id, ⟨by simpa [State.record] using hopen, hdown, hidle, hmonitor,
        fun hmem => hready (by simpa [State.record] using hmem), done, hsplit, hnext⟩, hagree.congr rfl rfl rfl rfl⟩
    · rw [State.cleanUp, if_neg hthere]
      refine ⟨h.congr rfl rfl rfl rfl rfl id, ?_, hagree.congr rfl rfl rfl rfl⟩
      refine ⟨hopen, hdown, hidle, hmonitor, hready, done, hsplit, hclean.trans ?_⟩
      simp [State.present, List.filter_append, hthere]

/-- The `finally` block. -/
theorem inv_finish (h : s.Core) (hagree : s.Agrees) (hopen : .emit .stopped ∉ s.log) (hmonitor : s.monitor ≠ .watching)
    (hready : .emit .ready ∈ s.log → s.stopRequested = true) (hclean : cleaned s.log = []) : s.finish.Inv := by
  have hcore : ({ s with shuttingDown := true, operational := false, aborted := true } : State).Core :=
    h.congr rfl rfl rfl rfl rfl nofun
  have hsplit : cleanups = [] ++ cleanups := rfl
  exact inv_cleanUp hcore (hagree.congr rfl rfl rfl rfl) hopen rfl rfl hmonitor hready hsplit hclean

/-- The `catch` block. -/
theorem inv_fail (h : s.Core) (hagree : s.Agrees) (hopen : .emit .stopped ∉ s.log) (hmonitor : s.monitor ≠ .watching)
    (hready : .emit .ready ∉ s.log) (hclean : cleaned s.log = []) (thrown : Thrown) (inside : List Reentry) :
    (s.fail thrown inside).Inv := by
  unfold State.fail
  split
  · exact inv_finish h hagree hopen hmonitor (fun hmem => absurd hmem hready) hclean
  · obtain ⟨htalks, hcore, hagree'⟩ := emit_spec h hopen hagree (thrown.getD .internalFailed) inside
    refine inv_finish (hcore.congr rfl rfl rfl rfl rfl id)
      ⟨hagree'.reported, hagree'.stopped, fun _ => Nat.one_ne_zero⟩ ((htalks.mem_iff rfl).not.mpr hopen)
      (htalks.monitor ▸ hmonitor) (fun hmem => absurd ((htalks.mem_iff rfl).mp hmem) hready)
      (htalks.cleaned_eq.trans hclean)

/-! ## One step -/

/-- A resource is there from now on. -/
theorem core_acquire (h : s.Core) (hopen : .emit .stopped ∉ s.log) (hclean : cleaned s.log = []) (r : Resource) :
    (({ s with resources := fun q => q = r || s.resources q } : State).record (.acquire r)).Core where
  law := h.law.concat ⟨hopen, hclean⟩
  stops := h.stops.trans (by simp [Stopped, State.record])
  acquired q := by simp [State.record, h.acquired q, or_comm]
  reported := h.reported.trans (by simp [State.record])
  unfailed hnot hmem := h.unfailed hnot (by simpa [State.record] using hmem)
  unstopped := h.unstopped

/-- The next stage begins, or the controller is ready. -/
theorem inv_stageEnds (h : s.Inv) {stage : Stage} (hpc : s.pc = .stage stage) : (s.stageEnds stage).Inv := by
  have hplaced := h.placed
  unfold State.Placed at hplaced
  rw [hpc] at hplaced
  obtain ⟨hopen, hclean, hdown, hidle, hmonitor, hstages, hready⟩ := hplaced
  unfold State.stageEnds
  split
  · exact inv_fail h.core h.agree hopen (by simp [hmonitor]) hready hclean _ _
  · next hrunning =>
    have hrunning : s.stopRequested = false := by simpa [hdown] using hrunning
    have hunstopped : ¬ Stopped s.log := fun hstop => by simp [h.core.stops.mpr hstop] at hrunning
    -- the next stage is called
    have hnext : ∀ next : Stage, next.upTo = stage.upTo ++ [next] →
        ({ s.record (.stage next) with pc := .stage next } : State).Inv := by
      intro next hupTo
      have hprefix : stages s.log ++ [next] <+: allStages := by
        rw [hstages, ← hupTo]
        cases next <;> decide
      have hcore := h.core.record (e := .stage next) rfl ⟨hopen, hprefix, hunstopped⟩
      refine ⟨hcore.congr rfl rfl rfl rfl rfl id, ?_, h.agree.congr rfl rfl rfl rfl⟩
      refine ⟨by simpa [State.record] using hopen, ?_, hdown, hidle, hmonitor, ?_,
        by simpa [State.record] using hready⟩
      · show cleaned (s.log ++ [.stage next]) = []
        rw [cleaned, List.filterMap_append, ← cleaned, hclean]
        rfl
      · show stages (s.log ++ [.stage next]) = next.upTo
        rw [stages, List.filterMap_append, ← stages, hstages, hupTo]
        rfl
    cases stage with
    | prepare => exact hnext .waitForBridge rfl
    | waitForBridge => exact hnext .startCoordinator rfl
    | startCoordinator =>
      have hup : ({ s with operational := true } : State).Core :=
        ⟨h.core.law, h.core.stops, h.core.acquired, h.core.reported, h.core.unfailed, fun _ => hrunning⟩
      have hcore := core_emitOther hup (c := .ready) rfl ⟨hopen, hstages, hready, hunstopped⟩
      have hexit := (talks_emitOther s (c := .intakeAccepted) rfl).exitCode
      refine ⟨hcore.congr rfl rfl rfl rfl rfl id, ?_, h.agree.reported, h.agree.stopped, hexit ∘ h.agree.failed⟩
      refine ⟨by simpa [State.emitOther, State.record] using hopen, ?_, hdown, nofun,
        List.mem_append_right _ (List.mem_singleton_self _), fun _ => rfl, nofun⟩
      show cleaned (s.log ++ [.emit .ready]) = []
      rw [cleaned, List.filterMap_append, ← cleaned, hclean]
      rfl

/-- The watch over the bridge ends. -/
theorem inv_monitorEnds (h : s.Inv) (hwatching : s.monitor = .watching) (thrown : Option Thrown)
    (inside : List Reentry) : (s.monitorEnds thrown inside).Inv := by
  have hplaced := h.placed
  unfold State.Placed at hplaced
  -- the body waits for a stop or for the watch
  have hpc : s.pc = .running ∨ s.pc = .joining := by
    cases hs : s.pc with
    | running => exact Or.inl rfl
    | joining => exact Or.inr rfl
    | stage | cleaning | returned => simp [hs, hwatching] at hplaced
  have hended : s.pc.ended = false := by
    rcases hpc with hpc | hpc
    all_goals rw [hpc]; rfl
  have hover : ∀ u : State, Talks s u → u.Core → u.Agrees → u.stopRequested = true →
      ({ u with monitor := .ended } : State).Inv := by
    intro u htalks hcore hagree hstop
    refine ⟨hcore.congr rfl rfl rfl rfl rfl id, ?_, hagree.reported, hagree.stopped, hagree.failed⟩
    have hplaced' := placed_talks hended h.placed htalks
    unfold State.Placed at hplaced' ⊢
    dsimp only
    rw [htalks.pc] at hplaced' ⊢
    rcases hpc with hpc | hpc
    · rw [hpc] at hplaced' ⊢
      obtain ⟨hopen, hclean, hdown, -, hready, hup, -⟩ := hplaced'
      exact ⟨hopen, hclean, hdown, nofun, hready, hup, fun _ => hstop⟩
    · rw [hpc] at hplaced' ⊢
      obtain ⟨hopen, hclean, hdown, -, -⟩ := hplaced'
      exact ⟨hopen, hclean, hdown, nofun, hstop⟩
  unfold State.monitorEnds
  split
  · next hexpected =>
    have hstop : s.stopRequested = true := by
      cases thrown with
      | none => exact hexpected
      | some thrown => exact ((Bool.and_eq_true _ _).mp hexpected).1
    exact hover s (.refl s) h.core h.agree hstop
  · obtain ⟨htalks, hcore, hagree, hstop, -⟩ := failClosed_emit_spec h.core (h.opened hended) h.agree inside
    exact hover _ htalks hcore hagree hstop

theorem inv_step (h : s.Inv) {e : Event} (hstep : Step s e t) : t.Inv := by
  have hplaced := h.placed
  unfold State.Placed at hplaced
  unfold Step at hstep
  cases e with
  | acquire r =>
    simp only [State.step] at hstep
    split at hstep
    · next stage hpc =>
      obtain rfl := Option.some.inj hstep
      rw [hpc] at hplaced
      obtain ⟨hopen, hclean, hdown, hidle, hmonitor, hstages, hready⟩ := hplaced
      refine ⟨core_acquire h.core hopen hclean r, ?_, h.agree.congr rfl rfl rfl rfl⟩
      unfold State.Placed
      simp only [State.record, hpc]
      refine ⟨by simpa using hopen, ?_, hdown, hidle, hmonitor, ?_, by simpa using hready⟩
      · rw [cleaned, List.filterMap_append, ← cleaned, hclean]
        rfl
      · rw [stages, List.filterMap_append, ← stages, hstages]
        exact List.append_nil _
    · cases hstep
  | signal =>
    simp only [State.step] at hstep
    split at hstep
    · cases hstep
    · next hpc =>
      obtain rfl := Option.some.inj hstep
      have hpc : s.pc.ended = false := by
        cases hs : s.pc <;> simp [hs, Pc.finished, Pc.ended] at hpc ⊢
      have htalks := talks_requestStop s 0
      exact h.talks hpc htalks (core_requestStop h.core (h.opened hpc) 0) (h.agree.talks htalks rfl rfl)
  | requestStop code =>
    simp only [State.step] at hstep
    split at hstep
    · cases hstep
    · next hpc =>
      obtain rfl := Option.some.inj hstep
      have hpc := Bool.eq_false_of_not_eq_true hpc
      have htalks := talks_requestStop s code
      exact h.talks hpc htalks (core_requestStop h.core (h.opened hpc) code) (h.agree.talks htalks rfl rfl)
  | report code inside =>
    simp only [State.step] at hstep
    split at hstep
    · cases hstep
    · next hpc =>
      obtain rfl := Option.some.inj hstep
      have hpc := Bool.eq_false_of_not_eq_true hpc
      obtain ⟨htalks, hcore, hagree⟩ := emit_spec h.core (h.opened hpc) h.agree code inside
      exact h.talks hpc htalks hcore hagree
  | intake duplicate =>
    simp only [State.step] at hstep
    split at hstep
    · cases hstep
    · next hpc =>
      obtain rfl := Option.some.inj hstep
      have hpc := Bool.eq_false_of_not_eq_true hpc
      have hopen := h.opened hpc
      cases duplicate with
      | true =>
        have htalks := talks_emitOther s (c := .intakeDuplicate) rfl
        exact h.talks hpc htalks (core_emitOther h.core rfl ⟨hopen, trivial⟩) (h.agree.talks htalks rfl rfl)
      | false =>
        have htalks := talks_emitOther s (c := .intakeAccepted) rfl
        exact h.talks hpc htalks (core_emitOther h.core rfl ⟨hopen, trivial⟩) (h.agree.talks htalks rfl rfl)
  | stageEnds thrown inside =>
    simp only [State.step] at hstep
    split at hstep
    · next stage hpc =>
      obtain rfl := Option.some.inj hstep
      exact inv_stageEnds h hpc
    · next stage thrown hpc =>
      obtain rfl := Option.some.inj hstep
      rw [hpc] at hplaced
      obtain ⟨hopen, hclean, -, -, hmonitor, -, hready⟩ := hplaced
      exact inv_fail h.core h.agree hopen (by simp [hmonitor]) hready hclean _ _
    · cases hstep
  | terminated =>
    simp only [State.step] at hstep
    split at hstep
    · next hcond =>
      obtain rfl := Option.some.inj hstep
      rw [hcond.1] at hplaced
      obtain ⟨hopen, hclean, hdown, hmonitor, -⟩ := hplaced
      exact ⟨h.core.congr rfl rfl rfl rfl rfl id, ⟨hopen, hclean, hdown, hmonitor, hcond.2⟩,
        h.agree.congr rfl rfl rfl rfl⟩
    · cases hstep
  | monitorEnds thrown inside =>
    simp only [State.step] at hstep
    split at hstep
    · next hwatching =>
      obtain rfl := Option.some.inj hstep
      exact inv_monitorEnds h hwatching thrown inside
    · cases hstep
  | joined =>
    simp only [State.step] at hstep
    split at hstep
    · next hcond =>
      obtain rfl := Option.some.inj hstep
      rw [hcond.1] at hplaced
      obtain ⟨hopen, hclean, -, -, hstop⟩ := hplaced
      exact inv_finish h.core h.agree hopen (by simp [hcond.2]) (fun _ => hstop) hclean
    · cases hstep
  | cleanupEnds failed =>
    simp only [State.step] at hstep
    split at hstep
    · next op rest hpc =>
      rw [hpc] at hplaced
      obtain ⟨hopen, hdown, hidle, hmonitor, hready, done, hsplit, hclean⟩ := hplaced
      rw [List.append_cons done op rest] at hsplit
      split at hstep
      · split at hstep
        · obtain rfl := Option.some.inj hstep
          have hcode : op.failure ≠ .leaseLost := by cases op <;> decide
          obtain ⟨hunrecorded, hallowed⟩ := allowed_error hopen hcode
          have hfailed : ({ s with exitCode := 1 } : State).Core := h.core.congr rfl rfl rfl rfl rfl id
          have htalks := talks_emitOther ({ s with exitCode := 1 } : State) (c := .error op.failure) rfl
          refine inv_cleanUp (core_emitOther hfailed hunrecorded hallowed) ?_ ((htalks.mem_iff rfl).not.mpr hopen)
            hdown hidle hmonitor (fun hmem => hready ((htalks.mem_iff rfl).mp hmem)) hsplit
            (htalks.cleaned_eq.trans hclean)
          exact ⟨h.agree.reported, h.agree.stopped, fun _ => htalks.exitCode Nat.one_ne_zero⟩
        · cases hstep
      · obtain rfl := Option.some.inj hstep
        exact inv_cleanUp h.core h.agree hopen hdown hidle hmonitor hready hsplit hclean
    · cases hstep

/-! ## Runs -/

theorem inv_run {es : List Event} (h : Exec Step State.initial es s) : s.Inv :=
  h.invariant (P := State.Inv) inv_initial fun _ _ _ hs hstep => inv_step hs hstep

/-- The controller is ready from the report `ready` to the first stop, while Redis is. -/
theorem ready_iff {es : List Event} (h : Exec Step State.initial es s) (redisReady : Bool) :
    s.isReady redisReady = true ↔
      .emit .ready ∈ s.log ∧ ¬ Stopped s.log ∧ .acquire .redis ∈ s.log ∧ redisReady = true := by
  have hinv := inv_run h
  have hstops := hinv.core.stops
  have hoperational : s.operational = true ↔ .emit .ready ∈ s.log ∧ ¬ Stopped s.log := by
    have hplaced := hinv.placed
    unfold State.Placed at hplaced
    constructor
    · intro hup
      refine ⟨?_, fun hstop => by simp [hinv.core.unstopped hup] at hstops; exact hstops hstop⟩
      cases hs : s.pc with
      | running => rw [hs] at hplaced; exact hplaced.2.2.2.2.1
      | stage | cleaning | returned => simp [hs, hup] at hplaced
      | joining =>
        rw [hs] at hplaced
        simp [hinv.core.unstopped hup] at hplaced
    · rintro ⟨hready, hrunning⟩
      have hrunning : s.stopRequested = false := Bool.eq_false_of_not_eq_true (hstops.not.mpr hrunning)
      cases hs : s.pc with
      | running => rw [hs] at hplaced; exact hplaced.2.2.2.2.2.1 hrunning
      | stage => simp [hs, hready] at hplaced
      | cleaning | returned | joining => simp [hs, hready, hrunning] at hplaced
  rw [State.isReady, Bool.and_eq_true, Bool.and_eq_true, hoperational, hinv.core.acquired, and_assoc, and_assoc]

/-! ## The exit code -/

/-- The step is a failure. -/
def State.fails (s : State) : Event → Bool
  | .requestStop code => code ≠ 0
  | .report code _ => code = .leaseLost && !s.leaseLossReported || s.shuttingDown && fatal (.error code)
  | .stageEnds (some thrown) _ => !s.expects thrown
  | .monitorEnds thrown _ => !s.expectsEnd thrown
  | .cleanupEnds failed => failed
  | _ => false

theorem exitCode_emitOther (s : State) (c : DiagnosticClass) :
    (s.emitOther c).exitCode = 0 ↔ s.exitCode = 0 ∧ (s.shuttingDown && fatal c) = false := by
  simp only [State.emitOther, State.record]
  split
  · next hfatal => simp [hfatal]
  · next hfatal => simp [Bool.eq_false_of_not_eq_true hfatal]

theorem exitCode_cleanUp (s : State) (ops : List Cleanup) : (s.cleanUp ops).exitCode = s.exitCode := by
  cases ops with
  | nil => simp [State.cleanUp, State.emitOther, State.record, fatal]
  | cons op rest =>
    by_cases hthere : s.resources op.resource = true
    · rw [State.cleanUp, if_pos hthere]
      rfl
    · rw [State.cleanUp, if_neg hthere]

theorem exitCode_finish (s : State) : s.finish.exitCode = s.exitCode := exitCode_cleanUp _ _

theorem exitCode_fail (s : State) (thrown : Thrown) (inside : List Reentry) :
    (s.fail thrown inside).exitCode = 0 ↔ s.exitCode = 0 ∧ s.expects thrown = true := by
  unfold State.fail
  split
  · next hexpected => rw [exitCode_finish, hexpected, and_iff_left rfl]
  · next hexpected => simp [exitCode_finish, hexpected]

/-- The exit code stays zero exactly where a step is no failure. -/
theorem exit_step (h : s.Inv) {e : Event} (hstep : Step s e t) :
    t.exitCode = 0 ↔ s.exitCode = 0 ∧ s.fails e = false := by
  unfold Step at hstep
  cases e with
  | acquire r =>
    simp only [State.step] at hstep
    split at hstep
    · obtain rfl := Option.some.inj hstep
      exact (and_iff_left rfl).symm
    · cases hstep
  | signal =>
    simp only [State.step] at hstep
    split at hstep
    · cases hstep
    · obtain rfl := Option.some.inj hstep
      simp [State.requestStop, State.record, State.fails]
  | requestStop code =>
    simp only [State.step] at hstep
    split at hstep
    · cases hstep
    · obtain rfl := Option.some.inj hstep
      simp [State.requestStop, State.record, State.fails]
  | report code inside =>
    simp only [State.step] at hstep
    split at hstep
    · cases hstep
    · next hpc =>
      obtain rfl := Option.some.inj hstep
      have hopen := h.opened (Bool.eq_false_of_not_eq_true hpc)
      unfold State.emit
      split
      · next hcode =>
        subst hcode
        split
        · next hreported => simp [State.fails, fatal, hreported]
        · next hreported =>
          have hfailed := (failClosedOnce_spec h.core hopen h.agree inside).2.2.2.2.2.1
          simp [State.fails, hreported, State.record, hfailed]
      · next hcode => simp [exitCode_emitOther, State.fails, hcode]
  | intake duplicate =>
    simp only [State.step] at hstep
    split at hstep
    · cases hstep
    · obtain rfl := Option.some.inj hstep
      rw [exitCode_emitOther]
      cases duplicate <;> simp [State.fails, fatal]
  | stageEnds thrown inside =>
    simp only [State.step] at hstep
    split at hstep
    · next stage hpc =>
      obtain rfl := Option.some.inj hstep
      have hdown : s.shuttingDown = false := by
        have hplaced := h.placed
        unfold State.Placed at hplaced
        rw [hpc] at hplaced
        exact hplaced.2.2.1
      unfold State.stageEnds
      split
      · next hstop =>
        have hstop : s.stopRequested = true := by simpa [hdown] using hstop
        simp [exitCode_fail, State.expects, hstop, State.fails]
      · cases stage with
        | prepare | waitForBridge => exact (and_iff_left rfl).symm
        | startCoordinator => exact (exitCode_emitOther _ .ready).trans (by simp [State.fails, fatal])
    · obtain rfl := Option.some.inj hstep
      simp [exitCode_fail, State.fails]
    · cases hstep
  | terminated =>
    simp only [State.step] at hstep
    split at hstep
    · obtain rfl := Option.some.inj hstep
      exact (and_iff_left rfl).symm
    · cases hstep
  | monitorEnds thrown inside =>
    simp only [State.step] at hstep
    split at hstep
    · next hwatching =>
      obtain rfl := Option.some.inj hstep
      unfold State.monitorEnds
      split
      · next hexpected => simp [State.fails, hexpected]
      · next hexpected =>
        have hpc : s.pc.ended = false := by
          have hplaced := h.placed
          unfold State.Placed at hplaced
          cases hs : s.pc with
          | returned => simp [hs, hwatching] at hplaced
          | stage | running | joining | cleaning => rfl
        have hfailed := (failClosed_emit_spec h.core (h.opened hpc) h.agree inside).2.2.2.2
        simp [State.fails, hexpected, hfailed]
    · cases hstep
  | joined =>
    simp only [State.step] at hstep
    split at hstep
    · obtain rfl := Option.some.inj hstep
      rw [exitCode_finish]
      exact (and_iff_left rfl).symm
    · cases hstep
  | cleanupEnds failed =>
    simp only [State.step] at hstep
    split at hstep
    · split at hstep
      · next hfailed =>
        split at hstep
        · obtain rfl := Option.some.inj hstep
          simp [exitCode_cleanUp, exitCode_emitOther, State.fails, hfailed]
        · cases hstep
      · next hfailed =>
        obtain rfl := Option.some.inj hstep
        simp [exitCode_cleanUp, State.fails, hfailed]
    · cases hstep

/-- The lifecycle returns zero exactly where no step of the run was a failure. -/
theorem exit_zero_iff {es : List Event} {code : Nat} (h : Exec Step State.initial es s)
    (hpc : s.pc = .returned code) :
    code = 0 ↔ Trace.tally State.step State.fails State.initial es = 0 := by
  have hplaced := (inv_run h).placed
  unfold State.Placed at hplaced
  rw [hpc] at hplaced
  rw [← hplaced.1]
  clear hplaced hpc
  induction h with
  | nil => exact iff_of_true rfl rfl
  | @snoc es s t e run last ih =>
    refine (exit_step (inv_run run) last).trans ((and_congr_left' ih).trans ?_)
    rw [Trace.tally_snoc run last]
    cases s.fails e <;> simp

/-! ## The end -/

/-- What the body awaits comes, or the watch ends. -/
def Event.completes : Event → Bool
  | .stageEnds _ _ | .terminated | .monitorEnds _ _ | .joined | .cleanupEnds _ => true
  | _ => false

/-- How much the body may still await. -/
def State.awaits (s : State) : Nat :=
  (match s.pc with
    | .stage .prepare => 13
    | .stage .waitForBridge => 12
    | .stage .startCoordinator => 11
    | .running => 9
    | .joining => 8
    | .cleaning _ rest => rest.length + 1
    | .returned _ => 0) + if s.monitor = .watching then 1 else 0

theorem cleanUp_awaits (hmonitor : s.monitor ≠ .watching) (ops : List Cleanup) :
    (s.cleanUp ops).awaits ≤ ops.length := by
  cases ops with
  | nil => simp [State.cleanUp, State.awaits, State.emitOther, State.record, hmonitor]
  | cons op rest =>
    by_cases hthere : s.resources op.resource = true
    · simp [State.cleanUp, hthere, State.awaits, State.record, hmonitor]
    · simp [State.cleanUp, hthere, State.awaits, hmonitor]

theorem finish_awaits (hmonitor : s.monitor ≠ .watching) : s.finish.awaits ≤ 7 :=
  cleanUp_awaits (s := { s with shuttingDown := true, operational := false, aborted := true }) hmonitor cleanups

theorem fail_awaits (h : s.Inv) (hpc : s.pc.ended = false) (hmonitor : s.monitor ≠ .watching) (thrown : Thrown)
    (inside : List Reentry) : (s.fail thrown inside).awaits ≤ 7 := by
  unfold State.fail
  split
  · exact finish_awaits hmonitor
  · have htalks := (emit_spec h.core (h.opened hpc) h.agree (thrown.getD .internalFailed) inside).1
    exact finish_awaits (s := { s.emit (thrown.getD .internalFailed) inside with exitCode := 1 })
      (htalks.monitor ▸ hmonitor)

theorem Talks.awaits_eq (h : Talks s t) : t.awaits = s.awaits := by
  unfold State.awaits
  rw [h.pc, h.monitor]

/-- What the body awaits brings it nearer to its end, and nothing takes it back. -/
theorem awaits_step (h : s.Inv) {e : Event} (hstep : Step s e t) :
    t.awaits + e.completes.toNat ≤ s.awaits := by
  have hplaced := h.placed
  unfold State.Placed at hplaced
  unfold Step at hstep
  cases e with
  | acquire r =>
    simp only [State.step] at hstep
    split at hstep
    · obtain rfl := Option.some.inj hstep
      exact Nat.le_refl _
    · cases hstep
  | signal =>
    simp only [State.step] at hstep
    split at hstep
    · cases hstep
    · obtain rfl := Option.some.inj hstep
      exact (talks_requestStop s 0).awaits_eq.le
  | requestStop code =>
    simp only [State.step] at hstep
    split at hstep
    · cases hstep
    · obtain rfl := Option.some.inj hstep
      exact (talks_requestStop s code).awaits_eq.le
  | report code inside =>
    simp only [State.step] at hstep
    split at hstep
    · cases hstep
    · next hpc =>
      obtain rfl := Option.some.inj hstep
      have hopen := h.opened (Bool.eq_false_of_not_eq_true hpc)
      exact (emit_spec h.core hopen h.agree code inside).1.awaits_eq.le
  | intake duplicate =>
    simp only [State.step] at hstep
    split at hstep
    · cases hstep
    · obtain rfl := Option.some.inj hstep
      cases duplicate with
      | true => exact (talks_emitOther s (c := .intakeDuplicate) rfl).awaits_eq.le
      | false => exact (talks_emitOther s (c := .intakeAccepted) rfl).awaits_eq.le
  | stageEnds thrown inside =>
    simp only [State.step] at hstep
    split at hstep
    · next stage hpc =>
      obtain rfl := Option.some.inj hstep
      rw [hpc] at hplaced
      obtain ⟨-, -, -, -, hmonitor, -⟩ := hplaced
      have hbefore : 11 ≤ s.awaits := by
        unfold State.awaits
        rw [hpc]
        rw [hmonitor]
        cases stage <;> decide
      unfold State.stageEnds
      split
      · have hfail := fail_awaits h (by rw [hpc]; rfl) (by simp [hmonitor]) (some .intakeClosed) []
        simp only [Event.completes, Bool.toNat_true]
        omega
      · cases stage <;>
          simp [State.awaits, hpc, State.record, hmonitor, Event.completes]
    · next stage thrown hpc =>
      obtain rfl := Option.some.inj hstep
      rw [hpc] at hplaced
      obtain ⟨-, -, -, -, hmonitor, -⟩ := hplaced
      have hbefore : 11 ≤ s.awaits := by
        unfold State.awaits
        rw [hpc]
        rw [hmonitor]
        cases stage <;> decide
      have hfail := fail_awaits h (by rw [hpc]; rfl) (by simp [hmonitor]) thrown inside
      simp only [Event.completes, Bool.toNat_true]
      omega
    · cases hstep
  | terminated =>
    simp only [State.step] at hstep
    split at hstep
    · next hcond =>
      obtain rfl := Option.some.inj hstep
      simp only [State.awaits, hcond.1, Event.completes, Bool.toNat_true]
      omega
    · cases hstep
  | monitorEnds thrown inside =>
    simp only [State.step] at hstep
    split at hstep
    · next hwatching =>
      obtain rfl := Option.some.inj hstep
      have hpc : s.pc.ended = false := by
        cases hs : s.pc with
        | returned => simp [hs, hwatching] at hplaced
        | stage | running | joining | cleaning => rfl
      have hover : ∀ u : State, Talks s u → ({ u with monitor := .ended } : State).awaits + 1 = s.awaits := by
        intro u htalks
        simp only [State.awaits, htalks.pc, hwatching]
        simp
      unfold State.monitorEnds
      split
      · exact (hover s (.refl s)).le
      · exact (hover _ (failClosed_emit_spec h.core (h.opened hpc) h.agree inside).1).le
    · cases hstep
  | joined =>
    simp only [State.step] at hstep
    split at hstep
    · next hcond =>
      obtain rfl := Option.some.inj hstep
      have hfinish := finish_awaits (s := s) (by simp [hcond.2])
      have hbefore : 8 ≤ s.awaits := by simp [State.awaits, hcond.1]
      simp only [Event.completes, Bool.toNat_true]
      omega
    · cases hstep
  | cleanupEnds failed =>
    simp only [State.step] at hstep
    split at hstep
    · next op rest hpc =>
      rw [hpc] at hplaced
      obtain ⟨-, -, -, hmonitor, -⟩ := hplaced
      have hbefore : s.awaits = rest.length + 1 := by simp [State.awaits, hpc, hmonitor]
      split at hstep
      · split at hstep
        · obtain rfl := Option.some.inj hstep
          have hnext := cleanUp_awaits
            (s := ({ s with exitCode := 1 } : State).emitOther (.error op.failure)) hmonitor rest
          simp only [Event.completes, Bool.toNat_true]
          omega
        · cases hstep
      · obtain rfl := Option.some.inj hstep
        have hnext := cleanUp_awaits hmonitor rest
        simp only [Event.completes, Bool.toNat_true]
        omega
    · cases hstep

/-- A body that has not returned awaits something that can come. -/
theorem completes_of_unreturned (h : s.Inv) (hpc : s.pc.ended = false) :
    ∃ e t, Event.completes e = true ∧ Step s e t := by
  have hplaced := h.placed
  unfold State.Placed at hplaced
  cases hs : s.pc with
  | stage stage => exact ⟨.stageEnds none [], s.stageEnds stage, rfl, by simp [Step, State.step, hs]⟩
  | running =>
    rw [hs] at hplaced
    obtain ⟨-, -, -, hmonitor, -, -, hended⟩ := hplaced
    cases hm : s.monitor with
    | unstarted => exact absurd hm hmonitor
    | watching => exact ⟨.monitorEnds none [], s.monitorEnds none [], rfl, by simp [Step, State.step, hm]⟩
    | ended => exact ⟨.terminated, { s with pc := .joining }, rfl, by simp [Step, State.step, hs, hended hm]⟩
  | joining =>
    rw [hs] at hplaced
    obtain ⟨-, -, -, hmonitor, -⟩ := hplaced
    cases hm : s.monitor with
    | unstarted => exact absurd hm hmonitor
    | watching => exact ⟨.monitorEnds none [], s.monitorEnds none [], rfl, by simp [Step, State.step, hm]⟩
    | ended => exact ⟨.joined, s.finish, rfl, by simp [Step, State.step, hs, hm]⟩
  | cleaning op rest =>
    exact ⟨.cleanupEnds false, s.cleanUp rest, rfl, by simp [Step, State.step, hs]⟩
  | returned => simp [hs, Pc.ended] at hpc

/-- The body awaits at most thirteen things in its life, and as long as it has not returned, one that
can come. -/
theorem returns {es : List Event} (h : Exec Step State.initial es s) :
    es.countP Event.completes + s.awaits ≤ 13 ∧
      (s.pc.ended = false → ∃ e t, Event.completes e = true ∧ Step s e t) := by
  refine ⟨?_, completes_of_unreturned (inv_run h)⟩
  induction h with
  | nil => decide
  | @snoc es s t e run last ih =>
    have hstep := awaits_step (inv_run run) last
    rw [List.countP_append, List.countP_singleton]
    cases hcompletes : e.completes <;> simp [hcompletes] at hstep ⊢ <;> omega

/-! ## A sample run -/

/-- The controller gets ready. -/
def sampleStart : List Event :=
  [.acquire .redis, .acquire .repository, .acquire .coordinator, .acquire .server, .stageEnds none [],
    .stageEnds none [], .stageEnds none []]

/-- The watch fails, and `failClosed` reports `lease_lost` itself.  One cleanup fails too. -/
def sampleLoss : List Event :=
  [.monitorEnds (some (some .internalFailed)) [.report .leaseLost, .requestStop 0], .terminated, .joined,
    .cleanupEnds false, .cleanupEnds false, .cleanupEnds true, .cleanupEnds false, .cleanupEnds false,
    .cleanupEnds false, .cleanupEnds false]

def sampleLossLog : List Effect :=
  [.stage .prepare, .acquire .redis, .acquire .repository, .acquire .coordinator, .acquire .server,
    .stage .waitForBridge, .stage .startCoordinator, .emit .ready, .failClosed, .stop 0, .stop 1,
    .emit (.error .leaseLost), .cleanup .stopIntake, .cleanup .stopScheduling, .cleanup .drain,
    .emit (.error .internalFailed), .cleanup .closeServer, .cleanup .closeRepository, .cleanup .closeRedis,
    .emit .stopped]

theorem sampleStart_run : ∃ s, Trace.follow State.step State.initial sampleStart = some s := ⟨_, rfl⟩

theorem sampleLoss_run : ∃ s, Trace.follow State.step State.initial (sampleStart ++ sampleLoss) = some s ∧
    s.log = sampleLossLog ∧ s.pc = .returned 1 := ⟨_, rfl, rfl, rfl⟩

theorem ready_iff_of_sampleStart : ∃ s, Trace.follow State.step State.initial sampleStart = some s ∧
    (s.isReady true = true ↔
      .emit .ready ∈ s.log ∧ ¬ Stopped s.log ∧ .acquire .redis ∈ s.log ∧ true = true) := by
  obtain ⟨s, hrun⟩ := sampleStart_run
  exact ⟨s, hrun, ready_iff (Trace.exec_of_follow hrun) true⟩

theorem exit_zero_iff_of_sampleLoss :
    1 = 0 ↔ Trace.tally State.step State.fails State.initial (sampleStart ++ sampleLoss) = 0 := by
  obtain ⟨s, hrun, -, hpc⟩ := sampleLoss_run
  exact exit_zero_iff (Trace.exec_of_follow hrun) hpc

theorem returns_of_sampleStart : ∃ s, Trace.follow State.step State.initial sampleStart = some s ∧
    sampleStart.countP Event.completes + s.awaits ≤ 13 ∧
      (s.pc.ended = false → ∃ e t, Event.completes e = true ∧ Step s e t) := by
  obtain ⟨s, hrun⟩ := sampleStart_run
  exact ⟨s, hrun, returns (Trace.exec_of_follow hrun)⟩

end WhatsAppMcp.Controller.Lifecycle
