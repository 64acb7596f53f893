import WhatsAppMcp.Lib.Trace
import WhatsAppMcp.Controller.Domain

/-!
# The coordinator

`createCoordinator` of `scheduler/coordinator.ts` with `createRecovery` of
`scheduler/recovery.ts`: the loop that claims work, the heartbeat of the app lease and the
drain, which share the variables of one closure.

What runs between two awaits is one step.  An event says which await comes back and with what;
the awaits of the loop, of the heartbeat, of `start` and of `drain` come back in any order.

* A promise that is rejected and the handler of it are two steps, as the handler runs later.
* A worker is a promise here that settles at some time.  Its `finally` runs at some time after that.
* A wait may end at any time, so the signal that ends it early is left out.
* `ids.next()` is given with the event whose step may ask for it; it is `none` where the check of
  the id throws.
* The diagnostics that the coordinator emits are among its calls.  `failClosed`, to which the
  report of a worker leads, is an event.
-/

namespace WhatsAppMcp.Controller.Scheduler

/-! ## Options -/

/-- `CoordinatorOptions`, as far as the coordinator reads them itself. -/
structure CoordinatorOptions where
  concurrency : Int
  leaseMs : Int
  renewMs : Int
  gapTimeoutMs : Int
  pollMs : Int
  deriving DecidableEq, Repr

/-- The check of the options. -/
def CoordinatorOptions.Valid (c : CoordinatorOptions) : Prop :=
  (1 ≤ c.concurrency ∧ c.concurrency ≤ 64) ∧ (3000 ≤ c.leaseMs ∧ c.leaseMs ≤ 300000) ∧
    (100 ≤ c.renewMs ∧ c.renewMs * 3 < c.leaseMs) ∧
    (1000 ≤ c.gapTimeoutMs ∧ c.gapTimeoutMs ≤ 3600000) ∧ (1 ≤ c.pollMs ∧ c.pollMs ≤ 5000)

instance (c : CoordinatorOptions) : Decidable c.Valid := by
  unfold CoordinatorOptions.Valid
  infer_instance

/-! ## Calls and answers -/

/-- What the coordinator asks of its ports. -/
inductive CoordinatorCall where
  | acquireApp (id : String) (leaseMs : Int)
  | renewApp (app : Fence) (leaseMs : Int)
  | releaseApp (app : Fence)
  | recoverPending (chat : String) (app : Option Fence) (consumer : String) (start : StreamId)
      (count : Nat)
  | claimNext (chat : String) (app : Option Fence) (owner : String) (leaseMs gapTimeoutMs : Int)
  | runChatWorker (work : ClaimedWork)
  | wait (ms : Int)
  | emit (diagnostic : ErrorClass)
  deriving DecidableEq

/-- What an await comes back with. -/
inductive Awaited (α : Type) where
  | resolved (value : α)
  | rejected
  deriving DecidableEq, Repr

/-- `PelRecovery`. -/
inductive PelRecovery where
  | ok (next : StreamId) (claimed deleted : Nat)
  | lost
  | busy
  | paused
  deriving DecidableEq, Repr

/-- `ClaimResult`. -/
inductive ClaimResult where
  | claimed (work : ClaimedWork)
  | empty
  | waiting
  | paused
  | lost
  deriving DecidableEq

/-! ## The closure -/

/-- Where `startTask` is. -/
inductive StartTask where
  | undefined
  | acquiring
  | settled
  deriving DecidableEq, Repr

/-- Where the loop is: `left` rounds of its `for` come after this one. -/
inductive LoopPc where
  | idle
  | recovering (left : Nat) (chat owner : String)
  | claiming (left : Nat) (chat owner : String)
  | waiting
  | failed
  | ended
  deriving DecidableEq, Repr

/-- Where the heartbeat is. -/
inductive HeartbeatPc where
  | idle
  | waiting
  | renewing
  | failed
  | ended
  deriving DecidableEq, Repr

/-- Where the drain is: what it awaits. -/
inductive DrainPc where
  | idle
  | startTask
  | loop
  | workers (tasks : List Nat)
  | heartbeat
  | release
  | done
  deriving DecidableEq, Repr

/-- Where the promise of a worker is; `finished` is after its `finally`. -/
inductive TaskPc where
  | running
  | fulfilled
  | rejected
  | finished
  deriving DecidableEq, Repr

/-- A promise in `active`, by the chat that it was set for. -/
structure Task where
  chat : String
  pc : TaskPc
  deriving DecidableEq, Repr

/-- The variables of the closure, and where its promises are.  A promise of `active` is its
place in `tasks`. -/
structure Coordinator where
  active : List (String × Nat)
  cursors : List (String × StreamId)
  app : Option Fence
  live : Bool
  started : Bool
  stopped : Bool
  lossReported : Bool
  heartbeatStop : Bool
  position : Nat
  startTask : StartTask
  loop : LoopPc
  heartbeat : HeartbeatPc
  drain : DrainPc
  tasks : List Task
  deriving DecidableEq, Repr

namespace Coordinator

/-- The variables of a new closure. -/
def initial : Coordinator where
  active := []
  cursors := []
  app := none
  live := false
  started := false
  stopped := false
  lossReported := false
  heartbeatStop := false
  position := 0
  startTask := .undefined
  loop := .idle
  heartbeat := .idle
  drain := .idle
  tasks := []

/-- `createCoordinator`. -/
def create (c : CoordinatorOptions) : Except ErrorClass Coordinator :=
  if c.Valid then .ok initial else .error .configInvalid

/-- A state with the calls that were made on the way to it. -/
abbrev After := Coordinator × List CoordinatorCall

/-- `lose`. -/
def lose (s : Coordinator) : After :=
  if s.lossReported then (s, [])
  else
    ({ s with lossReported := true, live := false, stopped := true, heartbeatStop := true },
      [.emit .leaseLost])

/-! ## The loop -/

/-- Behind the `for`. -/
def poll (c : CoordinatorOptions) (s : Coordinator) : After :=
  if s.stopped then ({ s with loop := .ended }, []) else ({ s with loop := .waiting }, [.wait c.pollMs])

/-- The `for` with so many rounds left, up to its next await. -/
def scan (c : CoordinatorOptions) (chats : List String) (owner : Option String) :
    Nat → Coordinator → After
  | 0, s => s.poll c
  | left + 1, s =>
    if s.stopped || !s.live then s.poll c
    else if c.concurrency ≤ s.active.length then s.poll c
    else
      let next := chats[s.position % chats.length]?
      let s := { s with position := s.position + 1 }
      match next with
      | none => scan c chats owner left s
      | some chat =>
        if chat = "" || (s.active.lookup chat).isSome then scan c chats owner left s
        else
          match owner with
          | none => ({ s with loop := .failed }, [])
          | some owner =>
            ({ s with loop := .recovering left chat owner },
              [.recoverPending chat s.app owner ((s.cursors.lookup chat).getD ⟨0, 0⟩) 32])

/-- The head of the `while`. -/
def turn (c : CoordinatorOptions) (chats : List String) (owner : Option String) (s : Coordinator) :
    After :=
  if !s.stopped && s.live && s.app.isSome then scan c chats owner chats.length s
  else ({ s with loop := .ended }, [])

/-- `cursors.set(chat, next)`. -/
def setCursor (s : Coordinator) (chat : String) (next : StreamId) : Coordinator :=
  { s with cursors := (chat, next) :: s.cursors.filter (·.1 ≠ chat) }

/-- Behind the await of `recovery`. -/
def recovered (c : CoordinatorOptions) (chats : List String) (s : Coordinator) (left : Nat)
    (chat owner : String) (answer : Awaited PelRecovery) (next : Option String) : After :=
  match answer with
  | .rejected => ({ s with loop := .failed }, [])
  | .resolved (.ok cursor _ deleted) =>
    let s := s.setCursor chat cursor
    if deleted ≠ 0 then scan c chats next left s
    else if s.stopped || !s.live then s.poll c
    else
      ({ s with loop := .claiming left chat owner },
        [.claimNext chat s.app owner c.leaseMs c.gapTimeoutMs])
  | .resolved _ => scan c chats next left s

/-- `active.set(chat, task)` for a new task. -/
def add (s : Coordinator) (chat : String) (pc : TaskPc) : Coordinator :=
  { s with
    active := s.active.filter (·.1 ≠ chat) ++ [(chat, s.tasks.length)]
    tasks := s.tasks ++ [⟨chat, pc⟩] }

/-- Behind the await of `claimNext`. -/
def claimed (c : CoordinatorOptions) (chats : List String) (s : Coordinator) (left : Nat)
    (chat : String) (answer : Awaited ClaimResult) (next : Option String) : After :=
  match answer with
  | .rejected => ({ s with loop := .failed }, [])
  | .resolved .lost =>
    let (s, reported) := s.lose
    let (s, calls) := s.poll c
    (s, reported ++ calls)
  | .resolved (.claimed work) =>
    if s.stopped || !s.live then scan c chats next left (s.add chat .fulfilled)
    else
      let (s, calls) := scan c chats next left (s.add chat .running)
      (s, .runChatWorker work :: calls)
  | .resolved _ => scan c chats next left s

/-! ## The heartbeat -/

/-- The head of the `while` of the heartbeat. -/
def beat (c : CoordinatorOptions) (s : Coordinator) : After :=
  if s.heartbeatStop then ({ s with heartbeat := .ended }, [])
  else ({ s with heartbeat := .waiting }, [.wait c.renewMs])

/-- Behind the await of the wait. -/
def renew (c : CoordinatorOptions) (s : Coordinator) : Awaited Unit → After
  | .rejected => ({ s with heartbeat := .failed }, [])
  | .resolved () =>
    if s.heartbeatStop then ({ s with heartbeat := .ended }, [])
    else
      match s.app with
      | none => { s with heartbeat := .ended }.lose
      | some app => ({ s with heartbeat := .renewing }, [.renewApp app c.leaseMs])

/-- Behind the await of `renewApp`. -/
def renewed (c : CoordinatorOptions) (s : Coordinator) : Awaited (Option Fence) → After
  | .rejected => ({ s with heartbeat := .failed }, [])
  | .resolved none => { s with heartbeat := .ended }.lose
  | .resolved (some app) => { s with app := some app }.beat c

/-! ## Start, stop and drain -/

/-- `start`, without its promise. -/
def start (c : CoordinatorOptions) (s : Coordinator) (id : Option String) : After :=
  if s.startTask ≠ .undefined || s.stopped || s.started then (s, [])
  else
    match id with
    | none => ({ s with started := true, startTask := .settled }, [])
    | some id => ({ s with started := true, startTask := .acquiring }, [.acquireApp id c.leaseMs])

/-- The app lease is held. -/
def hold (s : Coordinator) (app : Fence) : Coordinator :=
  { s with app := some app, live := true, startTask := .settled }

/-- Behind the await of `acquireApp`. -/
def acquired (c : CoordinatorOptions) (chats : List String) (s : Coordinator)
    (answer : Awaited (Option Fence)) (next : Option String) : After :=
  match answer with
  | .resolved (some app) =>
    let (s, calls) := (s.hold app).beat c
    let (s, more) := turn c chats next s
    (s, calls ++ more)
  | _ => ({ s with startTask := .settled }, [])

/-- `stopScheduling`. -/
def stopScheduling (s : Coordinator) : Coordinator := { s with stopped := true }

/-- The head of the `while` of the drain. -/
def settle (s : Coordinator) : Coordinator :=
  if s.active = [] then { s with heartbeatStop := true, drain := .heartbeat }
  else { s with drain := .workers (s.active.map Prod.snd) }

/-- The promise of this place is settled. -/
def Settled (s : Coordinator) (task : Nat) : Prop := ∀ t, s.tasks[task]? = some t → t.pc ≠ .running

instance (s : Coordinator) (task : Nat) : Decidable (s.Settled task) :=
  match h : s.tasks[task]? with
  | none => isTrue fun t ht => by rw [h] at ht; cases ht
  | some t =>
    if hpc : t.pc ≠ .running then isTrue fun t' ht => by rw [h] at ht; cases ht; exact hpc
    else isFalse fun hsettled => hpc (hsettled t h)

/-- The loop has ended, or never began. -/
def LoopEnded (s : Coordinator) : Prop := s.loop = .idle ∨ s.loop = .ended

instance (s : Coordinator) : Decidable s.LoopEnded := by
  unfold LoopEnded
  infer_instance

/-- The drain goes on, where what it awaits has settled. -/
def drainOn (s : Coordinator) : Option After :=
  match s.drain with
  | .startTask => if s.startTask = .acquiring then none else some ({ s with drain := .loop }, [])
  | .loop => if s.LoopEnded then some (s.settle, []) else none
  | .workers tasks => if ∀ task ∈ tasks, s.Settled task then some (s.settle, []) else none
  | .heartbeat =>
    if s.heartbeat ≠ .idle ∧ s.heartbeat ≠ .ended then none
    else
      match s.app with
      | some app =>
        if s.live then some ({ s with drain := .release }, [.releaseApp app])
        else some ({ s with live := false, drain := .done }, [])
      | none => some ({ s with live := false, drain := .done }, [])
  | .idle | .release | .done => none

/-- Behind the await of `releaseApp`. -/
def released (s : Coordinator) : Awaited Bool → After
  | .resolved _ => ({ s with live := false, drain := .done }, [])
  | .rejected => ({ s with live := false, drain := .done }, [.emit .storeUnavailable])

/-! ## Workers -/

/-- The promise at this place is now here. -/
def setTask (s : Coordinator) (task : Nat) (t : Task) (pc : TaskPc) : Coordinator :=
  { s with tasks := s.tasks.set task { t with pc := pc } }

/-- The `catch` and the `finally` of a promise. -/
def finish (s : Coordinator) (task : Nat) (t : Task) : After :=
  let calls := if t.pc = .rejected then [CoordinatorCall.emit .internalFailed] else []
  let active :=
    if s.active.lookup t.chat = some task then s.active.filter (·.1 ≠ t.chat) else s.active
  ({ s.setTask task t .finished with active := active }, calls)

end Coordinator

/-! ## Steps -/

/-- What happens to the coordinator: a call of it, or an await that comes back. -/
inductive CoordinatorEvent where
  | start (id : Option String)
  | acquired (answer : Awaited (Option Fence)) (next : Option String)
  | recovered (answer : Awaited PelRecovery) (next : Option String)
  | claimed (answer : Awaited ClaimResult) (next : Option String)
  | polled (answer : Awaited Unit) (next : Option String)
  | loopCaught
  | beat (answer : Awaited Unit)
  | renewed (answer : Awaited (Option Fence))
  | heartbeatCaught
  | settled (task : Nat) (pc : TaskPc)
  | finished (task : Nat)
  | failClosed
  | stopScheduling
  | drain
  | drainOn
  | released (answer : Awaited Bool)
  deriving DecidableEq

namespace Coordinator

/-- One step; `none` where the event cannot happen.  There is one drain. -/
def step (c : CoordinatorOptions) (chats : List String) (s : Coordinator) :
    CoordinatorEvent → Option After
  | .start id => some (s.start c id)
  | .acquired answer next =>
    if s.startTask = .acquiring then some (acquired c chats s answer next) else none
  | .recovered answer next =>
    match s.loop with
    | .recovering left chat owner => some (recovered c chats s left chat owner answer next)
    | _ => none
  | .claimed answer next =>
    match s.loop with
    | .claiming left chat _ => some (claimed c chats s left chat answer next)
    | _ => none
  | .polled answer next =>
    if s.loop = .waiting then
      match answer with
      | .rejected => some ({ s with loop := .failed }, [])
      | .resolved () => some (turn c chats next s)
    else none
  | .loopCaught => if s.loop = .failed then some { s with loop := .ended }.lose else none
  | .beat answer => if s.heartbeat = .waiting then some (s.renew c answer) else none
  | .renewed answer => if s.heartbeat = .renewing then some (s.renewed c answer) else none
  | .heartbeatCaught =>
    if s.heartbeat = .failed then some { s with heartbeat := .ended }.lose else none
  | .settled task pc =>
    match s.tasks[task]? with
    | some t =>
      if t.pc = .running ∧ (pc = .fulfilled ∨ pc = .rejected) then some (s.setTask task t pc, [])
      else none
    | none => none
  | .finished task =>
    match s.tasks[task]? with
    | some t => if t.pc = .fulfilled ∨ t.pc = .rejected then some (s.finish task t) else none
    | none => none
  | .failClosed => some s.lose
  | .stopScheduling => some (s.stopScheduling, [])
  | .drain =>
    if s.drain = .idle then some ({ s.stopScheduling with drain := .startTask }, []) else none
  | .drainOn => s.drainOn
  | .released answer => if s.drain = .release then some (s.released answer) else none

/-- An event with the calls of its step. -/
structure Label where
  event : CoordinatorEvent
  calls : List CoordinatorCall
  deriving DecidableEq

/-- The steps of a coordinator for these chats. -/
def Step (c : CoordinatorOptions) (chats : List String) (s : Coordinator) (l : Label)
    (t : Coordinator) : Prop :=
  s.step c chats l.event = some (t, l.calls)

end Coordinator

end WhatsAppMcp.Controller.Scheduler
