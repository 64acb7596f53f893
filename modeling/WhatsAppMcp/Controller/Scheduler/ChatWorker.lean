import WhatsAppMcp.Controller.Redis.Linearization
import WhatsAppMcp.Controller.Redis.Repository

/-!
# The chat worker

`runChatWorker` of `scheduler/chat-worker.ts`, with the turn ports of
`createJournalTurns`, as a machine that stands between two awaits.  Any number
of workers run beside the calls of `accept`, the other clients of the store and
the appends of markers.

A worker awaits either the two calls of `context.current()` or one call of the
store or of a port.  Its steps are the ways in which that await may come back:

* a call of a script runs as any other client's;
* `findEvent` comes back as the `Discipline` allows;
* the other ports (`ownMutation`, `classifyOwn`, `open`, `prepare`, `prompt`,
  `afterPrompt`, `confirmed`) may answer anything, and what they do to the
  store and to the session files meanwhile are steps of others;
* any await may throw, and the process may end anywhere.

A script may have run although its caller sees a failure: then the call is a
step of another client.  The run port calls its callback once at a time.
-/

namespace WhatsAppMcp.Controller.Scheduler

open Redis

variable {Fp : Type}

/-! ## Workers -/

/-- What `classifyOwn` answers. -/
inductive OwnMessage where
  | manual
  | confirmed
  | uncertain
  deriving DecidableEq, Repr

/-- The awaits of the worker, with what it holds by then: `session` is the one
that `readChat` returned, `opened` the one of the open session. -/
inductive Stage (Fp : Type) where
  | readChat
  | findEvent (session : Option SessionBinding) (since : Since)
  | ownMutation (session : Option SessionBinding)
  | turnState (session : Option SessionBinding)
  | classifyOwn (session : Option SessionBinding)
  | openSession (session : Option SessionBinding) (own : OwnMessage)
  | bindSession (session : Option SessionBinding) (own : OwnMessage) (opened : SessionBinding)
  | hostAttach (own : OwnMessage) (opened : SessionBinding)
  | attach (own : OwnMessage) (opened : SessionBinding)
  | attached (own : OwnMessage) (opened : SessionBinding)
  | prepare (opened : SessionBinding)
  | beginTurn (opened : SessionBinding)
  | callback (opened : SessionBinding)
  | prompt (opened : SessionBinding)
  | settle (opened : SessionBinding)
  | afterPrompt (opened : SessionBinding)
  | confirmed (opened : SessionBinding)
  | append (opened : SessionBinding) (sends : List ConfirmedSend)
  | complete (proof : CompletionProof Fp)
  | pause (reason : PauseReason)

/-- Where a worker stands: in the `renew` or the `checkWork` of a
`context.current()` before a stage, or in the stage. -/
inductive WorkerPc (Fp : Type) where
  | current (next : Stage Fp)
  | check (next : Stage Fp)
  | await (stage : Stage Fp)
  | done

/-- The stage a worker is in or on its way to. -/
def WorkerPc.stage? : WorkerPc Fp → Option (Stage Fp)
  | .current stage | .check stage | .await stage => some stage
  | .done => none

/-- The variables of `runChatWorker`. -/
structure Worker (Fp : Type) where
  work : ClaimedWork
  lost : Bool
  prompted : Bool
  reason : PauseReason
  pc : WorkerPc Fp

/-- A worker at its first `context.current()`. -/
def Worker.initial (work : ClaimedWork) : Worker Fp :=
  ⟨work, false, false, .sessionFailed, .current .readChat⟩

/-- `work = { ...work, ownership: renewed }`. -/
def Worker.renewed (w : Worker Fp) (epoch : String) (untilMs : Nat) : Worker Fp :=
  { w with work := { w.work with ownership := { w.work.ownership with
      chat := ⟨w.work.ownership.chat.owner, epoch, untilMs⟩ } } }

/-- What a step of the pool shows. -/
inductive Deed (Fp : Type) where
  | call (l : Label Fp)
  | prompt (i : Nat) (event : NotificationV2)

variable [DecidableEq Fp]

/-! ## Steps of one worker -/

/-- The worker calls the script `op` on its chat and is answered `r`. -/
inductive Calls (D : Discipline Fp) (chats : List String) (fingerprint : NotificationV2 → Fp)
    (s : System Fp) (work : ClaimedWork) (op : Op Fp) (r : Reply Fp) :
    Label Fp → System Fp → Prop
  | mk {clk : Clock} {u : Store Fp}
      (hstep : Store.Step chats fingerprint s.store
        (some (⟨work.event.canonicalChatJid, op, clk⟩, r)) u)
      (hready : D.Ready s ⟨work.event.canonicalChatJid, op, clk⟩) :
      Calls D chats fingerprint s work op r (some (⟨work.event.canonicalChatJid, op, clk⟩, r))
        { s with
          store := u
          completions := s.completions ++
            completionOf fingerprint (some (⟨work.event.canonicalChatJid, op, clk⟩, r)) }

/-- One step of worker `i`. -/
inductive Worker.Step (D : Discipline Fp) (chats : List String)
    (fingerprint : NotificationV2 → Fp) (i : Nat) (s : System Fp) (w : Worker Fp) :
    Deed Fp → System Fp → Worker Fp → Prop
  /-- `context.current()`: the lease is extended. -/
  | renew {next : Stage Fp} {leaseMs untilMs : Nat} {epoch : String} {l : Label Fp} {t : System Fp}
      (hpc : w.pc = .current next) (hlost : w.lost = false)
      (hcall : Calls D chats fingerprint s w.work (.renew (argsFor fingerprint w.work) leaseMs)
        (.fence epoch untilMs) l t) :
      Step D chats fingerprint i s w (.call l) t
        { w.renewed epoch untilMs with pc := .check next }
  /-- `context.current()`: the work is checked. -/
  | check {next : Stage Fp} {appUntilMs chatUntilMs : Nat} {l : Label Fp} {t : System Fp}
      (hpc : w.pc = .check next)
      (hcall : Calls D chats fingerprint s w.work (.checkWork (argsFor fingerprint w.work))
        (.deadlines appUntilMs chatUntilMs) l t) :
      Step D chats fingerprint i s w (.call l) t { w with pc := .await next }
  /-- The renewal loop extends the lease. -/
  | heartbeat {leaseMs untilMs : Nat} {epoch : String} {l : Label Fp} {t : System Fp}
      (hpc : w.pc ≠ .done) (hlost : w.lost = false)
      (hcall : Calls D chats fingerprint s w.work (.renew (argsFor fingerprint w.work) leaseMs)
        (.fence epoch untilMs) l t) :
      Step D chats fingerprint i s w (.call l) t (w.renewed epoch untilMs)
  /-- A `context.current()` finds the ownership gone. -/
  | lose : Step D chats fingerprint i s w (.call none) s { w with lost := true }
  | readChat {cursor : Nat} {session : Option SessionBinding} {gap : Option Nat} {l : Label Fp}
      {t : System Fp} (hpc : w.pc = .await .readChat)
      (hcall : Calls D chats fingerprint s w.work .read (.chat cursor.repr session none gap) l t)
      (hnext : cursor + 1 = w.work.event.chatSequence) :
      Step D chats fingerprint i s w (.call l) t { w with pc := .await (.findEvent session t.since) }
  /-- `findEvent` finds the marker of this event in the bound session. -/
  | found {session : Option SessionBinding} {since : Since} {m : CompletionProof Fp}
      (hpc : w.pc = .await (.findEvent session since)) (hmarker : m ∈ s.markers)
      (hverified : VerifiedProof m w.work.event.canonicalChatJid w.work.event.eventId)
      (hown : OwnProof fingerprint m w.work.event.canonicalChatJid w.work.event)
      (hsession : session = some m.session) :
      Step D chats fingerprint i s w (.call none) s { w with pc := .current (.complete m) }
  /-- `findEvent` finds nothing. -/
  | absent {session : Option SessionBinding} {since : Since}
      (hpc : w.pc = .await (.findEvent session since))
      (habsent : D.Absent s since w.work.event.canonicalChatJid w.work.event.eventId) :
      Step D chats fingerprint i s w (.call none) s { w with pc := .await (.ownMutation session) }
  /-- `ownMutation` does not answer `uncertain`. -/
  | ownMutation {session : Option SessionBinding} (hpc : w.pc = .await (.ownMutation session)) :
      Step D chats fingerprint i s w (.call none) s { w with pc := .await (.turnState session) }
  /-- The turn is `fresh`. -/
  | turnState {session : Option SessionBinding} {l : Label Fp} {t : System Fp}
      (hpc : w.pc = .await (.turnState session))
      (hcall : Calls D chats fingerprint s w.work (.turnState (argsFor fingerprint w.work))
        (.turn none) l t) :
      Step D chats fingerprint i s w (.call l) t { w with pc := .await (.classifyOwn session) }
  | classifyOwn {session : Option SessionBinding} {own : OwnMessage}
      (hpc : w.pc = .await (.classifyOwn session)) (hown : own ≠ .uncertain)
      (hmanual : w.work.event.isFromMe = false → own = .manual) :
      Step D chats fingerprint i s w (.call none) s
        { w with pc := .current (.openSession session own) }
  | openSession {session : Option SessionBinding} {own : OwnMessage} (opened : SessionBinding)
      (hpc : w.pc = .await (.openSession session own)) :
      Step D chats fingerprint i s w (.call none) s
        { w with pc := .current (.bindSession session own opened) }
  | bindSession {session : Option SessionBinding} {own : OwnMessage} {opened : SessionBinding}
      {l : Label Fp} {t : System Fp} (hpc : w.pc = .await (.bindSession session own opened))
      (hchat : opened.canonicalChatId = w.work.event.canonicalChatJid)
      (hsession : ∀ old, session = some old → old = opened)
      (hcall : Calls D chats fingerprint s w.work (.bind (argsFor fingerprint w.work) opened)
        .ok l t) :
      Step D chats fingerprint i s w (.call l) t { w with pc := .current (.hostAttach own opened) }
  | hostAttach {own : OwnMessage} {opened : SessionBinding}
      (hpc : w.pc = .await (.hostAttach own opened)) :
      Step D chats fingerprint i s w (.call none) s { w with pc := .current (.attach own opened) }
  /-- `attach` of the turn ports is one more `context.current()`. -/
  | attach {own : OwnMessage} {opened : SessionBinding} (hpc : w.pc = .await (.attach own opened)) :
      Step D chats fingerprint i s w (.call none) s { w with pc := .current (.attached own opened) }
  /-- The message is one of the controller's own sends: no turn. -/
  | context {opened : SessionBinding} (hpc : w.pc = .await (.attached .confirmed opened)) :
      Step D chats fingerprint i s w (.call none) s { w with pc := .current (.confirmed opened) }
  | turn {own : OwnMessage} {opened : SessionBinding} (hpc : w.pc = .await (.attached own opened))
      (hown : own ≠ .confirmed) :
      Step D chats fingerprint i s w (.call none) s
        { w with reason := .preparationFailed, pc := .await (.prepare opened) }
  | prepare {opened : SessionBinding} (hpc : w.pc = .await (.prepare opened)) :
      Step D chats fingerprint i s w (.call none) s { w with pc := .current (.beginTurn opened) }
  /-- The turn begins; `run` of the turn ports starts with a `context.current()`. -/
  | beginTurn {opened : SessionBinding} {l : Label Fp} {t : System Fp}
      (hpc : w.pc = .await (.beginTurn opened))
      (hcall : Calls D chats fingerprint s w.work (.beginTurn (argsFor fingerprint w.work)) .ok l t) :
      Step D chats fingerprint i s w (.call l) t
        { w with reason := .mutationUncertain, pc := .current (.callback opened) }
  | callback {opened : SessionBinding} (hpc : w.pc = .await (.callback opened))
      (hfirst : w.prompted = false) :
      Step D chats fingerprint i s w (.call none) s { w with pc := .current (.prompt opened) }
  /-- The agent is prompted. -/
  | prompt {opened : SessionBinding} (hpc : w.pc = .await (.prompt opened)) :
      Step D chats fingerprint i s w (.prompt i w.work.event) s
        { w with prompted := true, pc := .await (.settle opened) }
  /-- The run port calls its callback once more. -/
  | again {opened : SessionBinding} (hpc : w.pc = .await (.settle opened)) :
      Step D chats fingerprint i s w (.call none) s { w with pc := .await (.callback opened) }
  | settle {opened : SessionBinding} (hpc : w.pc = .await (.settle opened)) :
      Step D chats fingerprint i s w (.call none) s { w with pc := .current (.afterPrompt opened) }
  | afterPrompt {opened : SessionBinding} (hpc : w.pc = .await (.afterPrompt opened)) :
      Step D chats fingerprint i s w (.call none) s { w with pc := .current (.confirmed opened) }
  | confirmed {opened : SessionBinding} (sends : List ConfirmedSend)
      (hpc : w.pc = .await (.confirmed opened)) :
      Step D chats fingerprint i s w (.call none) s { w with pc := .current (.append opened sends) }
  /-- The marker is durable. -/
  | append {opened : SessionBinding} {sends : List ConfirmedSend} (entryId : String)
      (hpc : w.pc = .await (.append opened sends)) :
      Step D chats fingerprint i s w (.call none)
        { s with markers := s.markers ++ [⟨w.work.event.eventId, fingerprint w.work.event,
          w.work.event.canonicalChatJid, w.work.event.chatSequence, sends, entryId, opened⟩] }
        { w with pc := .current (.complete ⟨w.work.event.eventId, fingerprint w.work.event,
          w.work.event.canonicalChatJid, w.work.event.chatSequence, sends, entryId, opened⟩) }
  | complete {proof : CompletionProof Fp} {l : Label Fp} {t : System Fp}
      (hpc : w.pc = .await (.complete proof))
      (hcall : Calls D chats fingerprint s w.work
        (.complete (argsFor fingerprint w.work) proof.session proof.confirmedSends) .ok l t) :
      Step D chats fingerprint i s w (.call l) t { w with pc := .done }
  /-- An await of the `try` block throws, with a code of its own or not, and the
  ownership is not known to be gone. -/
  | throw {stage : Stage Fp} (code : Option PauseReason) (hpc : w.pc.stage? = some stage)
      (hstage : ∀ reason, stage ≠ .pause reason) (hlost : w.lost = false) :
      Step D chats fingerprint i s w (.call none) s
        { w with reason := code.getD w.reason, pc := .current (.pause (code.getD w.reason)) }
  | pause {reason : PauseReason} {r : Reply Fp} {l : Label Fp} {t : System Fp}
      (hpc : w.pc = .await (.pause reason))
      (hcall : Calls D chats fingerprint s w.work (.pause (argsFor fingerprint w.work) reason) r l t) :
      Step D chats fingerprint i s w (.call l) t { w with pc := .done }
  /-- The worker ends, after its ownership is gone, a failed `pause` or a crash. -/
  | leave : Step D chats fingerprint i s w (.call none) s { w with pc := .done }

/-! ## The pool of workers -/

/-- The system beside its workers. -/
structure Pool (Fp : Type) where
  base : System Fp
  workers : Nat → Option (Worker Fp)

/-- An empty system and no workers. -/
def Pool.empty (time : Nat) : Pool Fp := ⟨.empty time, fun _ => none⟩

/-- The pool with worker `i` moved and the system in state `t`. -/
def Pool.move (s : Pool Fp) (i : Nat) (t : System Fp) (w : Worker Fp) : Pool Fp :=
  ⟨t, Function.update s.workers i (some w)⟩

omit [DecidableEq Fp] in
@[simp] theorem Pool.move_self (s : Pool Fp) (i : Nat) (t : System Fp) (w : Worker Fp) :
    (s.move i t w).workers i = some w := Function.update_self ..

omit [DecidableEq Fp] in
theorem Pool.move_of_ne (s : Pool Fp) {i j : Nat} (t : System Fp) (w : Worker Fp)
    (h : j ≠ i) : (s.move i t w).workers j = s.workers j := Function.update_of_ne h ..

omit [DecidableEq Fp] in
theorem Pool.move_cases {s : Pool Fp} {i j : Nat} {t : System Fp} {w v : Worker Fp}
    (h : (s.move i t w).workers j = some v) :
    j = i ∧ v = w ∨ j ≠ i ∧ s.workers j = some v := by
  by_cases hj : j = i
  · subst hj
    rw [Pool.move_self] at h
    exact Or.inl ⟨rfl, (Option.some.inj h).symm⟩
  · rw [Pool.move_of_ne _ _ _ hj] at h
    exact Or.inr ⟨hj, h⟩

/-- One step of the pool: of anything that is not a worker, the start of a
worker on some work, or a step of a worker. -/
inductive Pool.Step (D : Discipline Fp) (chats : List String)
    (fingerprint : NotificationV2 → Fp) : Pool Fp → Deed Fp → Pool Fp → Prop
  | outside {s : Pool Fp} {l : Label Fp} {t : System Fp}
      (hstep : System.Step D chats fingerprint s.base l t) :
      Step D chats fingerprint s (.call l) { s with base := t }
  | start {s : Pool Fp} {i : Nat} (work : ClaimedWork) (hidle : s.workers i = none) :
      Step D chats fingerprint s (.call none) (s.move i s.base (.initial work))
  | worker {s : Pool Fp} {i : Nat} {w w' : Worker Fp} {d : Deed Fp} {t : System Fp}
      (hworker : s.workers i = some w)
      (hstep : Worker.Step D chats fingerprint i s.base w d t w') :
      Step D chats fingerprint s d (s.move i t w')

end WhatsAppMcp.Controller.Scheduler
