import WhatsAppMcp.Bridge.Store.Sequences
import WhatsAppMcp.Bridge.Notify.Worker
import WhatsAppMcp.Controller.Redis.Linearization
import WhatsAppMcp.Delivery.Wire

/-!
# The bridge and the controller beside each other

The outbox of the bridge, the store of the controller with its intake calls, and the
attempts of the dispatchers between them.

A dispatcher claims a row and begins an attempt.  The request of an attempt may arrive
at the controller late, more than once, or never, and each arrival that the controller
takes in becomes a call of `accept`.  The dispatcher hears the response to one of them,
a refusal, or an error of the transport, and then records the outcome.  Any number of
attempts is under way, also for one row, since a lease expires without its holder.

* `Link.Step` lets one party move.
* `Link.Step.bridge` and `exec_controller` take the run of each party out of a run of the link.
-/

namespace WhatsAppMcp.Delivery

open Trace (Exec)
open Bridge.Store (Notification)
open Bridge.Notify (Body Decoders Exchange Config Reading AttemptEnv payloadBytes)
open Controller (NotificationV2 AdmissionPolicy)
open Controller.Intake (Conditions HttpConfig admitted answerOf admitted_parse
  parsePayload_configured)
open Controller.Redis (AcceptCall Acceptance)

/-! ## Attempts -/

/-- An attempt of a dispatcher: what it claimed, its settings, its clock before the
request, the calls of `accept` that its request has become, and whether its outcome is
recorded. -/
structure Attempt where
  claimed : Notification
  cfg : Config
  before : Reading
  calls : List Nat
  recorded : Bool

/-- The attempt makes a request. -/
def Attempt.Sends (a : Attempt) : Prop :=
  a.cfg.allowed a.claimed.chatJid = true ∧ a.before.nanos < a.claimed.expiresAt

/-- The settings of the two services. -/
structure Setting (Fp : Type) where
  policy : AdmissionPolicy
  http : HttpConfig
  fingerprint : NotificationV2 → Fp
  decoders : Decoders

/-- The two services, and the attempts between them. -/
structure Link (Fp : Type) where
  bridge : Bridge.Store.System
  controller : Controller.Redis.System Fp
  attempts : List Attempt

/-- Nothing stored, nothing claimed. -/
def Link.initial {Fp : Type} (clock : Int) (time : Nat) : Link Fp :=
  ⟨.initial clock, .empty time, []⟩

variable {Fp : Type}

/-- What an attempt may get for its request: an error, a refusal, or the reply to a
call that it has become. -/
def Link.Hears (s : Link Fp) (a : Attempt) : Exchange → Prop
  | .error _ => True
  | .ok r => 400 ≤ r.statusCode.val ∨
      ∃ i ∈ a.calls, ∃ event n answer, s.controller.calls i = some ⟨event, n, .done answer⟩ ∧
        r.statusCode.val = answerOf answer

/-! ## Steps -/

/-- A move of one party. -/
inductive Event (Fp : Type) where
  /-- A call of the bridge's store that records no outcome. -/
  | store (c : Bridge.Store.Call)
  /-- A claim, whose dispatcher begins an attempt. -/
  | claim (c : Bridge.Store.Call)
  /-- The controller moves. -/
  | controller (l : Controller.Redis.Label Fp)
  /-- The request of an attempt arrives and becomes a call of `accept`. -/
  | request (attempt call : Nat)
  /-- The outcome of an attempt is recorded. -/
  | finish (attempt : Nat) (c : Bridge.Store.Call)

/-- The move of the controller that an event is. -/
def Event.label : Event Fp → Option (Controller.Redis.Label Fp)
  | .controller l => some l
  | .request _ _ => some none
  | _ => none

variable [DecidableEq Fp]

/-- One step of the link. -/
inductive Link.Step (set : Setting Fp) : Link Fp → Event Fp → Link Fp → Prop
  | store {s : Link Fp} {c : Bridge.Store.Call} {b : Bridge.Store.System}
      (hstep : s.bridge.Step c b) (hop : ∀ n outcome, c.op ≠ .finishNotification n outcome) :
      Step set s (.store c) { s with bridge := b }
  | claim {s : Link Fp} {c : Bridge.Store.Call} {b : Bridge.Store.System} {allowed : List String}
      {maxAttempts lease : Int} {claimed : Notification} (cfg : Config) (before : Reading)
      (hop : c.op = .claimNotification allowed maxAttempts lease) (hstep : s.bridge.Step c b)
      (hanswer : (Bridge.Store.claimNotification c.env s.bridge.db allowed maxAttempts lease).2 =
        .ok (some claimed)) :
      Step set s (.claim c)
        { s with bridge := b, attempts := s.attempts ++ [⟨claimed, cfg, before, [], false⟩] }
  | controller {s : Link Fp} {l : Controller.Redis.Label Fp} {t : Controller.Redis.System Fp}
      (hstep : Controller.Redis.System.Step .durable set.policy.configuredChats set.fingerprint
        s.controller l t) :
      Step set s (.controller l) { s with controller := t }
  | request {s : Link Fp} {j i : Nat} {a : Attempt} {body : Body} {event : NotificationV2}
      (cond : Conditions) (envelope : Envelope) (hattempt : s.attempts[j]? = some a)
      (hsends : a.Sends) (hbody : payloadBytes a.claimed = some body)
      (hadmitted : admitted set.http set.policy cond (requestOf envelope a.claimed body) =
        .ok event)
      (hidle : s.controller.calls i = none) :
      Step set s (.request j i)
        { s with
          controller := s.controller.setCall i ⟨event, 0, .snapshot⟩
          attempts := s.attempts.set j { a with calls := i :: a.calls } }
  | finish {s : Link Fp} {j : Nat} {a : Attempt} {c : Bridge.Store.Call} {b : Bridge.Store.System}
      (exchange : Body → Exchange) (env : AttemptEnv) (hattempt : s.attempts[j]? = some a)
      (hopen : a.recorded = false) (hbefore : env.before = a.before)
      (hhears : ∀ body, s.Hears a (exchange body))
      (hop : c.op = .finishNotification a.claimed
        (Bridge.Notify.attempt a.cfg set.decoders exchange env a.claimed))
      (hstep : s.bridge.Step c b) :
      Step set s (.finish j c)
        { s with bridge := b, attempts := s.attempts.set j { a with recorded := true } }

/-! ## The parties -/

variable {set : Setting Fp} {s t : Link Fp} {e : Event Fp} {es : List (Event Fp)} {clock : Int}
  {time : Nat}

/-- A step of the link leaves the bridge or is a call of its store. -/
theorem Link.Step.bridge (h : Link.Step set s e t) :
    t.bridge = s.bridge ∨ ∃ c, s.bridge.Step c t.bridge := by
  cases h with
  | store hstep | claim _ _ _ hstep | finish _ _ _ _ _ _ _ hstep => exact Or.inr ⟨_, hstep⟩
  | controller | request => exact Or.inl rfl

/-- What the controller does in a step of the link. -/
theorem Link.Step.controller_step (h : Link.Step set s e t) :
    (e.label = none ∧ t.controller = s.controller) ∨
      ∃ l, e.label = some l ∧ Controller.Redis.System.Step .durable set.policy.configuredChats
        set.fingerprint s.controller l t.controller := by
  cases h with
  | store | claim | finish => exact Or.inl ⟨rfl, rfl⟩
  | controller hstep => exact Or.inr ⟨_, rfl, hstep⟩
  | request cond envelope _ _ _ hadmitted hidle =>
    refine Or.inr ⟨none, rfl, ?_⟩
    exact .start _ hidle (parsePayload_configured (admitted_parse hadmitted))

/-- A run of the link is one of the controller. -/
theorem exec_controller (h : Exec (Link.Step set) (Link.initial clock time) es s) :
    Exec (Controller.Redis.System.Step .durable set.policy.configuredChats set.fingerprint)
      (.empty time) (es.filterMap Event.label) s.controller := by
  have hsim : ∀ s e t (c : Controller.Redis.System Fp), s.controller = c → Link.Step set s e t →
      Trace.Simulates (Controller.Redis.System.Step .durable set.policy.configuredChats
        set.fingerprint) (t.controller = ·) c (Event.label e) := by
    rintro s e t c rfl hstep
    rcases hstep.controller_step with ⟨hlabel, hsame⟩ | ⟨l, hlabel, hmove⟩
    · rw [hlabel]
      exact hsame
    · rw [hlabel]
      exact ⟨_, hmove, rfl⟩
  obtain ⟨c, hrun, rfl⟩ := h.refine (R := fun (s : Link Fp) c => s.controller = c) rfl hsim
  exact hrun

end WhatsAppMcp.Delivery
