import Mathlib.Data.List.Basic
import Mathlib.Tactic.Common

/-!
# The connection manager

`bridge/connection/manager.go` and `state.go` as a machine of threads over one
shared `Connection`.  A thread is a call of `Connect`, a goroutine of
`scheduleReconnect`, or the rest of an event handler, and its value says where
it stands.  One step of a thread is one critical section, one atomic load or
one call out of the package; the environment chooses what a `select` or an
outer call does.

* `transitionState` and `markConnected` are the two critical sections.
* `Thread.advance` is the code between them, thread by thread.
* `System.step` adds the event handlers, which run their first critical section
  at once and leave the rest to a new thread.

A goroutine that is blocked in its `select` is `parked`.  Closing a channel
wakes it at once (`Thread.wake`), so a later timer finds it gone, as in Go.  A
goroutine that has not reached its `select` yet is `selecting`, and may find
several cases ready.

Time is not modelled: a timer may fire whenever it is pending.
-/

namespace WhatsAppMcp.Bridge.Manager

/-! ## The shared state -/

/-- `ConnectionState`. -/
inductive ConnectionState where
  | disconnected
  | connecting
  | qrWaiting
  | connected
  | permanentlyDisconnected
  deriving DecidableEq, Repr

/-- The fields of `Connection` that the threads share.  A connected channel is
its number. -/
structure Connection where
  state : ConnectionState
  permanent : Bool
  generation : Nat
  retryCount : Nat
  /-- `stopCh` is closed. -/
  stopped : Bool
  connectedCh : Nat
  /-- The connected channels that are closed. -/
  closed : List Nat
  nextCh : Nat
  /-- The buffered value of `permanentDisconnect`. -/
  permanentDisconnect : Bool
  /-- `permanentOnce` has run. -/
  published : Bool
  deriving DecidableEq, Repr

/-- `NewConnection`. -/
def newConnection : Connection where
  state := .disconnected
  permanent := false
  generation := 0
  retryCount := 0
  stopped := false
  connectedCh := 0
  closed := []
  nextCh := 1
  permanentDisconnect := false
  published := false

/-- `backoffDurations`, in seconds. -/
def backoffDurations : List Nat := [1, 2, 4, 8, 16, 32, 60]

/-- `transitionState`, with what it returns. -/
def Connection.transitionState (c : Connection) (next : ConnectionState) : Connection × Bool :=
  if next = .permanentlyDisconnected then
    if c.permanent then (c, false) else ({ c with permanent := true, state := next }, true)
  else if c.permanent then (c, false)
  else ({ c with state := next }, true)

/-- `close(connected)`, where the channel is not closed already. -/
def Connection.closeConnected (c : Connection) : Connection :=
  if c.connectedCh ∈ c.closed then c else { c with closed := c.connectedCh :: c.closed }

section CloseConnected

variable (c : Connection)

@[simp] theorem Connection.closeConnected_state : c.closeConnected.state = c.state := by
  unfold closeConnected
  split <;> rfl

@[simp] theorem Connection.closeConnected_permanent :
    c.closeConnected.permanent = c.permanent := by
  unfold closeConnected
  split <;> rfl

@[simp] theorem Connection.closeConnected_generation :
    c.closeConnected.generation = c.generation := by
  unfold closeConnected
  split <;> rfl

@[simp] theorem Connection.closeConnected_stopped : c.closeConnected.stopped = c.stopped := by
  unfold closeConnected
  split <;> rfl

@[simp] theorem Connection.closeConnected_connectedCh :
    c.closeConnected.connectedCh = c.connectedCh := by
  unfold closeConnected
  split <;> rfl

@[simp] theorem Connection.closeConnected_nextCh : c.closeConnected.nextCh = c.nextCh := by
  unfold closeConnected
  split <;> rfl

@[simp] theorem Connection.mem_closeConnected (ch : Nat) :
    ch ∈ c.closeConnected.closed ↔ ch = c.connectedCh ∨ ch ∈ c.closed := by
  unfold closeConnected
  split
  · next hclosed =>
    constructor
    · exact .inr
    · intro h
      rcases h with rfl | h
      · exact hclosed
      · exact h
  · simp

end CloseConnected

/-- `markConnected`, with what it returns. -/
def Connection.markConnected (c : Connection) : Connection × Bool :=
  if (c.transitionState .connected).2 then
    ({ (c.transitionState .connected).1 with retryCount := 0 }.closeConnected, true)
  else (c, false)

/-- `resetConnectedCh`, with the new channel. -/
def Connection.resetConnectedCh (c : Connection) : Connection × Nat :=
  ({ c with connectedCh := c.nextCh, nextCh := c.nextCh + 1 }, c.nextCh)

/-- The operations of `scheduleReconnect` before its `go`, with the generation
and the delay of the new goroutine. -/
def Connection.nextAttempt (c : Connection) : Connection × Nat × Nat :=
  let idx := if c.retryCount ≥ backoffDurations.length then 0 else c.retryCount
  ({ c with generation := c.generation + 1, retryCount := idx + 1 }, c.generation + 1,
    backoffDurations.getD idx 0)

/-! ## Threads -/

/-- The errors of `reconnect` and `Connect`. -/
inductive ConnectError where
  | permanentDisconnect
  | canceled
  | contextDone
  | deadlineExceeded
  | connectFailed
  | qrChannelFailed
  | qrTimeout
  | qrError
  deriving DecidableEq, Repr

/-- Who called `reconnect`. -/
inductive Caller where
  | connect
  | loop
  deriving DecidableEq, Repr

/-- Where a thread stands. -/
inductive Thread where
  -- `scheduleReconnect`
  | scheduling
  | spawning
  | sleeping (gen delay : Nat)
  | woken (gen : Nat)
  | generationChecked
  | starting
  | failed (err : ConnectError)
  | retrying
  -- `reconnect`
  | reconnecting (caller : Caller)
  | resetting (caller : Caller)
  | dialing (caller : Caller) (ch : Nat)
  | dialFailed (caller : Caller)
  | selecting (caller : Caller) (ch : Nat)
  | parked (caller : Caller) (ch : Nat)
  | received (caller : Caller)
  | timedOut (caller : Caller)
  | interrupted (caller : Caller)
  -- `HandlePermanentDisconnect`
  | closing
  | publishing
  -- `Connect` and `qrConnect`
  | connecting (paired : Bool)
  | counting (paired : Bool)
  | qrStarting
  | qrAcquiring
  | qrAcquireFailed
  | qrDialing
  | qrDialFailed
  | qrSelecting
  | qrCancelled
  | qrInterrupted
  | qrStopping
  | qrClosed
  | qrDraining
  | qrSucceeded
  | qrTimedOut
  | qrErrored
  | returned (result : Except ConnectError Unit)
  | done
  deriving DecidableEq

/-- `QRChannelItem`, and the closed channel. -/
inductive QrItem where
  | code
  | success
  | timeout
  | error
  | other
  | closed
  deriving DecidableEq, Repr

/-- What the environment decides in a step of a thread. -/
inductive Choice where
  /-- Nothing, or the case of the channel. -/
  | go
  /-- The timer has fired. -/
  | timer
  /-- The case of `stopCh`. -/
  | stop
  /-- The case of `ctx.Done()`. -/
  | cancel
  /-- No case is ready. -/
  | park
  /-- The outer call returns without an error. -/
  | succeed
  /-- The outer call returns an error. -/
  | fail
  /-- The case of the QR channel. -/
  | item (item : QrItem)
  deriving DecidableEq, Repr

/-- The caller of `reconnect` after its return. -/
def Caller.resume : Caller → Except ConnectError Unit → Thread
  | .connect, result => .returned result
  | .loop, .ok () => .done
  | .loop, .error err => .failed err

/-- The result of a step without a new goroutine. -/
abbrev Advance := Connection × Thread × Option Thread

/-- `return ErrPermanentDisconnect` after a permanent loss, else the other. -/
def Connection.orPermanent (c : Connection) (result : Except ConnectError Unit) :
    Except ConnectError Unit :=
  if c.permanent then .error .permanentDisconnect else result

/-- One step of a thread.  `none` is a choice that is not open to it. -/
def Thread.advance (c : Connection) : Thread → Choice → Option Advance
  | .scheduling, .go => some (c, if c.permanent then .done else .spawning, none)
  | .spawning, .go =>
    let (c', gen, delay) := c.nextAttempt
    some (c', .done, some (.sleeping gen delay))
  | .sleeping gen _, .timer => some (c, .woken gen, none)
  | .sleeping _ _, .stop => if c.stopped then some (c, .done, none) else none
  | .woken gen, .go => some (c, if c.generation = gen then .generationChecked else .done, none)
  | .generationChecked, .go => some (c, if c.permanent then .done else .starting, none)
  | .starting, .go =>
    let (c', ok) := c.transitionState .connecting
    some (c', if ok then .reconnecting .loop else .done, none)
  | .failed err, .go =>
    some (c, if c.permanent || err = .permanentDisconnect then .done else .retrying, none)
  | .retrying, .go =>
    let (c', ok) := c.transitionState .disconnected
    some (c', if ok then .scheduling else .done, none)
  | .reconnecting caller, .go =>
    some (c, if c.permanent then caller.resume (.error .permanentDisconnect) else .resetting caller,
      none)
  | .resetting caller, .go =>
    let (c', ch) := c.resetConnectedCh
    some (c', .dialing caller ch, none)
  | .dialing caller ch, .succeed => some (c, .selecting caller ch, none)
  | .dialing caller _, .fail => some (c, .dialFailed caller, none)
  | .dialFailed caller, .go =>
    some ((c.transitionState .disconnected).1, caller.resume (.error .connectFailed), none)
  | .selecting caller ch, .go => if ch ∈ c.closed then some (c, .received caller, none) else none
  | .selecting caller _, .timer => some (c, .timedOut caller, none)
  | .selecting caller _, .stop => if c.stopped then some (c, .interrupted caller, none) else none
  | .selecting .connect _, .cancel => some (c, .returned (.error .contextDone), none)
  | .selecting caller ch, .park =>
    if ch ∈ c.closed || c.stopped then none else some (c, .parked caller ch, none)
  | .parked caller _, .timer => some (c, .timedOut caller, none)
  | .parked .connect _, .cancel => some (c, .returned (.error .contextDone), none)
  | .received caller, .go => some (c, caller.resume (c.orPermanent (.ok ())), none)
  | .timedOut caller, .go =>
    let (c', ok) := c.transitionState .disconnected
    some (c', caller.resume (.error
      (if !ok && c'.permanent then .permanentDisconnect else .deadlineExceeded)), none)
  | .interrupted caller, .go =>
    some (c, caller.resume (c.orPermanent (.error .canceled)), none)
  | .closing, .go => some ({ c with stopped := true }, .publishing, none)
  | .publishing, .go =>
    some (if c.published then c else { c with published := true, permanentDisconnect := true },
      .done, none)
  | .connecting paired, .go =>
    let (c', ok) := c.transitionState .connecting
    some (c', if ok then .counting paired else .returned (.error .permanentDisconnect), none)
  | .counting paired, .go =>
    some ({ c with generation := c.generation + 1 },
      if paired then .reconnecting .connect else .qrStarting, none)
  | .qrStarting, .go =>
    let (c', ok) := c.transitionState .qrWaiting
    some (c', if ok then .qrAcquiring else .returned (.error .permanentDisconnect), none)
  | .qrAcquiring, .succeed => some (c, .qrDialing, none)
  | .qrAcquiring, .fail => some (c, .qrAcquireFailed, none)
  | .qrAcquireFailed, .go =>
    some ((c.transitionState .disconnected).1, .returned (.error .qrChannelFailed), none)
  | .qrDialing, .succeed => some (c, .qrSelecting, none)
  | .qrDialing, .fail => some (c, .qrDialFailed, none)
  | .qrDialFailed, .go =>
    some ((c.transitionState .disconnected).1, .returned (.error .connectFailed), none)
  | .qrSelecting, .cancel => some (c, .qrCancelled, none)
  | .qrSelecting, .stop => if c.stopped then some (c, .qrInterrupted, none) else none
  | .qrSelecting, .item .code => some (c, .qrSelecting, none)
  | .qrSelecting, .item .other => some (c, .qrSelecting, none)
  | .qrSelecting, .item .success => some (c, .qrSucceeded, none)
  | .qrSelecting, .item .timeout => some (c, .qrTimedOut, none)
  | .qrSelecting, .item .error => some (c, .qrErrored, none)
  | .qrSelecting, .item .closed => some (c, .qrClosed, none)
  | .qrCancelled, .go =>
    some ((c.transitionState .disconnected).1, .returned (.error .contextDone), none)
  | .qrInterrupted, .go =>
    some (c, if c.permanent then .returned (.error .permanentDisconnect) else .qrStopping, none)
  | .qrStopping, .go =>
    some ((c.transitionState .disconnected).1, .returned (.error .canceled), none)
  | .qrClosed, .go =>
    some (c, if c.permanent then .returned (.error .permanentDisconnect) else .qrDraining, none)
  | .qrDraining, .go =>
    if c.permanentDisconnect then
      some ({ c with permanentDisconnect := false }, .returned (.error .permanentDisconnect), none)
    else some (c, .returned (.ok ()), none)
  | .qrSucceeded, .go =>
    let (c', ok) := c.markConnected
    some (c', .returned (if ok then .ok () else .error .permanentDisconnect), none)
  | .qrTimedOut, .go =>
    let (c', ok) := c.transitionState .disconnected
    some (c', .returned (.error
      (if !ok && c'.permanent then .permanentDisconnect else .qrTimeout)), none)
  | .qrErrored, .go =>
    let (c', ok) := c.transitionState .disconnected
    some (c', .returned (.error
      (if !ok && c'.permanent then .permanentDisconnect else .qrError)), none)
  | _, _ => none

/-- A parked thread goes on when one of its channels is closed. -/
def Thread.wake (c : Connection) : Thread → Thread
  | .parked caller ch =>
    if ch ∈ c.closed then .received caller
    else if c.stopped then .interrupted caller
    else .parked caller ch
  | thread => thread

/-! ## The system -/

/-- The connection and all its threads. -/
structure System where
  conn : Connection
  threads : List Thread
  deriving DecidableEq

/-- What happens next. -/
inductive Event where
  /-- `HandleConnected`. -/
  | connected
  /-- `HandleDisconnected`. -/
  | disconnected
  /-- `HandleStreamError`. -/
  | streamError
  /-- `HandlePermanentDisconnect` and `HandleLoggedOut`. -/
  | permanentDisconnect
  /-- `Stop`. -/
  | stop
  /-- A receive from `PermanentDisconnects` outside the package. -/
  | supervise
  /-- A step of one thread. -/
  | thread (i : Nat) (choice : Choice)
  deriving DecidableEq, Repr

/-- The system after a change of the connection. -/
def System.settle (c : Connection) (threads : List Thread) : System :=
  ⟨c, threads.map (Thread.wake c)⟩

/-- `HandleDisconnected` and `HandleStreamError` up to `scheduleReconnect`. -/
def System.lose (s : System) : System :=
  let (c, ok) := s.conn.transitionState .disconnected
  .settle c (s.threads ++ if ok then [.scheduling] else [])

/-- One step of the system. -/
def System.step (s : System) : Event → Option System
  | .connected => some (.settle s.conn.markConnected.1 s.threads)
  | .disconnected => some s.lose
  | .streamError => some s.lose
  | .permanentDisconnect =>
    let (c, ok) := s.conn.transitionState .permanentlyDisconnected
    some (.settle c (s.threads ++ if ok then [.closing] else []))
  | .stop => some (.settle { s.conn with stopped := true } s.threads)
  | .supervise => some { s with conn := { s.conn with permanentDisconnect := false } }
  | .thread i choice =>
    match s.threads[i]? with
    | none => none
    | some thread =>
      match thread.advance s.conn choice with
      | none => none
      | some (c, next, spawned) => some (.settle c (s.threads.set i next ++ spawned.toList))

/-- The step relation. -/
def System.Step (s : System) (e : Event) (t : System) : Prop := s.step e = some t

/-- A new connection, on which `Connect` is called. -/
def System.initial (paired : Bool) : System := ⟨newConnection, [.connecting paired]⟩

end WhatsAppMcp.Bridge.Manager
