import WhatsAppMcp.Bridge.Notify.Client
import WhatsAppMcp.Bridge.Store.Leases

/-!
# The attempt of the dispatcher

`attempt` of `bridge/notify/worker.go`: the outcome that it computes for a
claimed event, and what `FinishNotification` makes of it.

* `deliver_known`: the classes and states of the results are those of the store.
* `Recordable` says that the store takes an outcome, and `Conclusive` when an outcome
  has to be a terminal one.
* `attempt_recordable_iff`: every outcome is recordable but those of the statuses
  from 600 on, which the client hands over and the store refuses.
-/

namespace WhatsAppMcp.Bridge.Notify

open Store (Notification OutboxState NotificationOutcome OutboxRow Database Env messageReceived)

/-! ## The attempt -/

/-- An instant of the system clock, whose nanoseconds are a signed machine word. -/
structure Reading where
  nanos : Int
  range : -2 ^ 63 ≤ nanos ∧ nanos < 2 ^ 63

/-- `time.Duration(float64(delay) * (0.8 + 0.4*jitter))`, for one jitter. -/
structure Jitter where
  scale : Int → Int
  nonneg : ∀ delay, 0 ≤ delay → 0 ≤ scale delay

/-- `5*time.Minute`. -/
def fiveMinutes : Int := 300 * second

/-- A delay, up to five minutes. -/
def capped (delay : Int) : Int := if delay > fiveMinutes then fiveMinutes else delay

/-- `retryDelay`. -/
def retryDelay (attempt : Nat) (jitter : Jitter) : Int :=
  let attempt := if attempt < 1 then 1 else attempt
  let attempt := if attempt > 7 then 7 else attempt
  capped (jitter.scale (capped (5 * second * 2 ^ (attempt - 1))))

theorem capped_bounds {delay : Int} (h : 0 ≤ delay) : 0 ≤ capped delay ∧ capped delay ≤ fiveMinutes := by
  unfold capped
  split
  · exact ⟨by decide, le_refl _⟩
  · omega

theorem retryDelay_bounds (attempt : Nat) (jitter : Jitter) :
    0 ≤ retryDelay attempt jitter ∧ retryDelay attempt jitter ≤ fiveMinutes := by
  have hbase : ∀ k : Nat, 0 ≤ 5 * second * 2 ^ k := fun k =>
    Int.mul_nonneg (by decide) (Int.pow_nonneg (by decide))
  exact capped_bounds (jitter.nonneg _ (capped_bounds (hbase _)).1)

/-- The settings that an attempt uses. -/
structure Config where
  enabled : Bool
  chatAllowlist : List String
  maxAttempts : Int

/-- `allowed`. -/
def Config.allowed (cfg : Config) (chat : String) : Bool := cfg.enabled && chat ∈ cfg.chatAllowlist

/-- What an attempt meets: the clocks before and after the request, the clock of the
sender, and the jitter. -/
structure AttemptEnv where
  before : Reading
  sending : Reading
  after : Reading
  jitter : Jitter

/-- The instant of the next attempt after a result. -/
def nextAttempt (env : AttemptEnv) (n : Notification) (r : DeliveryResult) : Int :=
  let delay := retryDelay n.attempts env.jitter
  env.after.nanos + if r.retryAfter > delay then r.retryAfter else delay

/-- The outcome of a request that was made. -/
def settle (cfg : Config) (env : AttemptEnv) (n : Notification) (r : DeliveryResult) :
    NotificationOutcome :=
  if r.state = .pending then
    let next := nextAttempt env n r
    if cfg.maxAttempts ≤ n.attempts then ⟨.dead, "attempts_exhausted", r.httpStatus, next⟩
    else if n.expiresAt ≤ next then ⟨.dead, "expired", r.httpStatus, next⟩
    else ⟨.pending, r.failureClass, r.httpStatus, next⟩
  else ⟨r.state, r.failureClass, r.httpStatus, env.after.nanos⟩

/-- The outcome that `attempt` hands to `FinishNotification`. -/
def attempt (cfg : Config) (decoders : Decoders) (exchange : Body → Exchange) (env : AttemptEnv)
    (n : Notification) : NotificationOutcome :=
  if !cfg.allowed n.chatJid then ⟨.dead, "policy_removed", 0, env.before.nanos⟩
  else if env.before.nanos < n.expiresAt then
    settle cfg env n (deliver decoders exchange n env.sending.nanos)
  else ⟨.dead, "expired", 0, env.before.nanos⟩

/-! ## Results -/

section Results

variable {cfg : Config} {decoders : Decoders} {exchange : Body → Exchange} {env : AttemptEnv}
  {n : Notification}

/-- The checks of `FinishNotification`. -/
def Valid (outcome : NotificationOutcome) : Prop :=
  outcome.failureClass ∈ Store.notificationClasses ∧ outcome.state ≠ .leased ∧
    0 ≤ outcome.httpStatus ∧ outcome.httpStatus ≤ 599

instance (outcome : NotificationOutcome) : Decidable (Valid outcome) :=
  inferInstanceAs (Decidable (_ ∧ _))

/-- A result that the worker can record, its status apart. -/
structure DeliveryResult.Known (r : DeliveryResult) : Prop where
  known : r.failureClass ∈ Store.notificationClasses
  issued : r.state ≠ .leased
  status : 0 ≤ r.httpStatus
  delay : 0 ≤ r.retryAfter ∧ r.retryAfter ≤ maxDuration

theorem known_of_class {state : OutboxState} {failureClass : String} {status : Int}
    (hclass : failureClass ∈ Store.notificationClasses) (hstate : state ≠ .leased)
    (hstatus : 0 ≤ status) : DeliveryResult.Known ⟨state, failureClass, status, 0⟩ :=
  ⟨hclass, hstate, hstatus, le_refl 0, by show (0 : Int) ≤ maxDuration; decide⟩

theorem ofTransportError_known (e : TransportError) : (ofTransportError e).Known := by
  cases e with
  | destinationPolicy => exact known_of_class (by decide) nofun (le_refl _)
  | certificate => exact known_of_class (by decide) nofun (le_refl _)
  | other cancelled => cases cancelled <;> exact known_of_class (by decide) nofun (le_refl _)

theorem ofSuccess_known (r : Response) : (ofSuccess decoders n r).Known := by
  have hstatus : (0 : Int) ≤ r.statusCode.val := by omega
  have hprotocol : DeliveryResult.Known ⟨.pending, "protocol", r.statusCode.val, 0⟩ :=
    known_of_class (by decide) nofun hstatus
  unfold ofSuccess
  split
  · exact hprotocol
  · split
    · exact hprotocol
    · split
      · exact known_of_class (by decide) nofun hstatus
      · split
        · exact known_of_class (by decide) nofun hstatus
        · exact hprotocol

theorem ofResponse_known (now : Int) (r : Response) : (ofResponse decoders n now r).Known := by
  have hstatus : (0 : Int) ≤ r.statusCode.val := by omega
  unfold ofResponse
  split
  · refine ⟨?_, nofun, hstatus, retryAfter_bounds _ _ _⟩
    show (if r.statusCode = 429 then "rate_limited" else "http_retry") ∈ Store.notificationClasses
    split <;> decide
  · split
    · exact known_of_class (by decide) nofun hstatus
    · exact ofSuccess_known r

/-- Every result of a delivery has a class and a state that the store knows. -/
theorem deliver_known (now : Int) : (deliver decoders exchange n now).Known := by
  unfold deliver
  split
  · exact known_of_class (by decide) nofun (le_refl _)
  · split
    · exact ofTransportError_known _
    · exact ofResponse_known now _

/-- What the attempt gets for its request, where it makes one. -/
def answer (cfg : Config) (exchange : Body → Exchange) (env : AttemptEnv) (n : Notification) :
    Option Exchange :=
  if cfg.allowed n.chatJid ∧ env.before.nanos < n.expiresAt then (payloadBytes n).map exchange
  else none

/-- The status of an answer, `0` where there is no response. -/
def statusOf : Option Exchange → Int
  | some (.ok r) => r.statusCode.val
  | _ => 0

theorem ofSuccess_status (r : Response) :
    (ofSuccess decoders n r).httpStatus = r.statusCode.val := by
  unfold ofSuccess
  split
  · rfl
  · split
    · rfl
    · split
      · rfl
      · split <;> rfl

theorem ofResponse_status (now : Int) (r : Response) :
    (ofResponse decoders n now r).httpStatus = r.statusCode.val := by
  unfold ofResponse
  split
  · rfl
  · split
    · rfl
    · exact ofSuccess_status r

theorem settle_status (r : DeliveryResult) : (settle cfg env n r).httpStatus = r.httpStatus := by
  unfold settle
  split
  · simp only
    split
    · rfl
    · split <;> rfl
  · rfl

/-- The status of an outcome is that of the response. -/
theorem attempt_status : (attempt cfg decoders exchange env n).httpStatus =
    statusOf (answer cfg exchange env n) := by
  unfold attempt answer
  by_cases hallowed : cfg.allowed n.chatJid = true
  · by_cases hexpired : env.before.nanos < n.expiresAt
    · simp only [hallowed, hexpired, Bool.not_true, Bool.false_eq_true, if_false, if_true, and_self,
        settle_status]
      unfold deliver
      cases payloadBytes n with
      | none => rfl
      | some body =>
        simp only [Option.map_some]
        cases exchange body with
        | error e => cases e <;> rfl
        | ok r => exact ofResponse_status _ r
    · simp [hallowed, hexpired, statusOf]
  · simp [hallowed, statusOf]

/-- An outcome has a class and a state that the store knows. -/
theorem settle_known {r : DeliveryResult} (hr : r.Known) :
    (settle cfg env n r).failureClass ∈ Store.notificationClasses ∧
      (settle cfg env n r).state ≠ .leased := by
  unfold settle
  split
  · simp only
    split
    · exact ⟨(by decide : "attempts_exhausted" ∈ Store.notificationClasses), nofun⟩
    · split
      · exact ⟨(by decide : "expired" ∈ Store.notificationClasses), nofun⟩
      · exact ⟨hr.known, nofun⟩
  · exact ⟨hr.known, hr.issued⟩

theorem attempt_known :
    (attempt cfg decoders exchange env n).failureClass ∈ Store.notificationClasses ∧
      (attempt cfg decoders exchange env n).state ≠ .leased := by
  unfold attempt
  split
  · exact ⟨(by decide : "policy_removed" ∈ Store.notificationClasses), nofun⟩
  · split
    · exact settle_known (deliver_known _)
    · exact ⟨(by decide : "expired" ∈ Store.notificationClasses), nofun⟩

theorem timestamptz_truncate {t : Int} (hlow : -2 ^ 63 ≤ t) (hhigh : t < 2 ^ 64) :
    timestamptz (truncateMicrosecond t) = true := by
  unfold timestamptz truncateMicrosecond
  rw [Bool.and_eq_true]
  exact ⟨decide_eq_true (by omega), decide_eq_true (by omega)⟩

/-- The next attempt is at an instant that the column holds. -/
theorem settle_instant {r : DeliveryResult} (hr : r.Known) :
    timestamptz (truncateMicrosecond (settle cfg env n r).nextAttemptAt) = true := by
  have hdelay := retryDelay_bounds n.attempts env.jitter
  have hasked := hr.delay
  have hnow := env.after.range
  have hnext : env.after.nanos ≤ nextAttempt env n r ∧
      nextAttempt env n r ≤ env.after.nanos + maxDuration := by
    unfold nextAttempt
    unfold fiveMinutes second at hdelay
    unfold maxDuration at hasked ⊢
    simp only
    split <;> omega
  have hrange : env.after.nanos ≤ (settle cfg env n r).nextAttemptAt ∧
      (settle cfg env n r).nextAttemptAt ≤ env.after.nanos + maxDuration := by
    unfold settle
    split
    · simp only
      split
      · exact hnext
      · split <;> exact hnext
    · exact ⟨le_refl _, Int.le_add_of_nonneg_right (by decide)⟩
  unfold maxDuration at hrange
  exact timestamptz_truncate (by omega) (by omega)

theorem attempt_instant :
    timestamptz (truncateMicrosecond (attempt cfg decoders exchange env n).nextAttemptAt) = true := by
  have hnow := env.before.range
  have hbefore : timestamptz (truncateMicrosecond env.before.nanos) = true :=
    timestamptz_truncate (by omega) (by omega)
  unfold attempt
  split
  · exact hbefore
  · split
    · exact settle_instant (deliver_known _)
    · exact hbefore

end Results

/-! ## The record of an outcome -/

/-- The server carries the statements out, and its clock shows an instant that a column
holds. -/
structure Carries (env : Env) : Prop where
  fails : ∀ statement, env.fails statement = false
  heard : env.unanswered = false
  clock : timestamptz (env.clock .finishNotification) = true

/-- The store takes the outcome: it passes the checks of `FinishNotification` and of the
table, and a row under a live lease leaves it with this outcome. -/
structure Recordable (n : Notification) (outcome : NotificationOutcome) : Prop where
  valid : Valid outcome
  checks : ∀ (row : OutboxRow) now, row.Checks → timestamptz now = true →
    (row.finish outcome now).Checks
  recorded : ∀ (env : Env) (db : Database) (row : OutboxRow), Carries env →
    (∀ row ∈ db.outbox.rows, row.Checks) → row ∈ db.outbox.rows →
    row.heldBy (env.clock .finishNotification) n.eventId n.leaseToken = true →
    (Store.finishNotification env db n outcome).2 = .ok true ∧
      (Store.finishNotification env db n outcome).1.outbox.lookup n.eventId =
        some (row.finish outcome (env.clock .finishNotification))

/-- The answer rejects the event for good. -/
def Rejects : Exchange → Prop
  | .error .destinationPolicy | .error .certificate => True
  | .error (.other _) => False
  | .ok r => retriedStatus r.statusCode = false ∧ successStatus r.statusCode = false

/-- The outcome of a permanent rejection, of the last attempt, and of an attempt after
which the next one would be too late, is a terminal one. -/
structure Conclusive (cfg : Config) (decoders : Decoders) (exchange : Body → Exchange)
    (env : AttemptEnv) (n : Notification) (outcome : NotificationOutcome) : Prop where
  rejected : ∀ e, answer cfg exchange env n = some e → Rejects e → outcome.state.terminal = true
  last : cfg.maxAttempts ≤ n.attempts → outcome.state.terminal = true
  late : n.expiresAt ≤ nextAttempt env n (deliver decoders exchange n env.sending.nanos) →
    outcome.state.terminal = true

section Record

variable {n : Notification} {outcome : NotificationOutcome}

theorem finish_checks {row : OutboxRow} {now : Int} (hvalid : Valid outcome)
    (hinstant : timestamptz (truncateMicrosecond outcome.nextAttemptAt) = true) (h : row.Checks)
    (hnow : timestamptz now = true) : (row.finish outcome now).Checks := by
  obtain ⟨-, hlease, hterminal, hstatus⟩ :=
    Store.finish_coherent h.coherent hvalid.2.1 hvalid.2.2
  refine ⟨h.1, hinstant, rfl, ?_, hlease, hterminal, hstatus⟩
  show (if outcome.state = .pending then none else some now : Option Int).all timestamptz = true
  split
  · rfl
  · exact hnow

/-- The row under the lease is the only one that the update selects. -/
theorem countP_heldBy {db : Database} {row : OutboxRow} {now : Int} {eventId token : String}
    (hrow : row ∈ db.outbox.rows) (hheld : row.heldBy now eventId token = true) :
    db.outbox.rows.countP (fun row => row.heldBy now eventId token) = 1 := by
  have hkey : ∀ other ∈ db.outbox.rows, other.heldBy now eventId token = true → other = row := by
    intro other hother hsel
    refine Table.eq_of_key hother hrow ?_
    simp only [OutboxRow.heldBy, Bool.and_eq_true, decide_eq_true_eq] at hheld hsel
    exact hsel.1.1.1.trans hheld.1.1.1.symm
  have hnodup : db.outbox.rows.Nodup := .of_map _ db.outbox.unique
  have hcount : db.outbox.rows.countP (fun row => row.heldBy now eventId token) =
      db.outbox.rows.count row := by
    rw [List.count]
    refine List.countP_congr fun other hother => ?_
    rw [beq_iff_eq]
    exact ⟨hkey other hother, fun heq => heq ▸ hheld⟩
  rw [hcount]
  exact List.count_eq_one_of_mem hnodup hrow

theorem not_refused (hvalid : Valid outcome) :
    ¬ (outcome.failureClass ∉ Store.notificationClasses || outcome.state = .leased ||
      outcome.httpStatus < 0 || outcome.httpStatus > 599) = true := by
  obtain ⟨hclass, hstate, hlow, hhigh⟩ := hvalid
  simp [hclass, hstate]
  omega

/-- A transaction that goes through is committed, and its answer heard. -/
theorem submit_carried {α : Type} {env : Env} {db db' : Database}
    {fn : Database → Except Store.TxError (Database × α)} {a : α} (hcarries : Carries env)
    (h : fn db = .ok (db', a)) : env.submit db fn = (db', some a) := by
  unfold Env.submit
  simp [hcarries.fails, hcarries.heard, h]

theorem recordable_of_valid (hvalid : Valid outcome)
    (hinstant : timestamptz (truncateMicrosecond outcome.nextAttemptAt) = true) :
    Recordable n outcome := by
  refine ⟨hvalid, fun row now => finish_checks hvalid hinstant, ?_⟩
  intro env db row hcarries hchecks hrow hheld
  have hselected : ∀ r ∈ db.outbox.rows,
      r.heldBy (env.clock .finishNotification) n.eventId n.leaseToken = true →
      (r.finish outcome (env.clock .finishNotification)).Checks := fun r hr _ =>
    finish_checks hvalid hinstant (hchecks r hr) hcarries.clock
  have hlookup : db.outbox.lookup n.eventId = some row := by
    refine Table.lookup_eq_some.mpr ⟨hrow, ?_⟩
    simp only [OutboxRow.heldBy, Bool.and_eq_true, decide_eq_true_eq] at hheld
    exact hheld.1.1.1
  obtain ⟨db', hupdate⟩ : ∃ db', db.updateOutbox
      (fun row => row.heldBy (env.clock .finishNotification) n.eventId n.leaseToken)
      (OutboxRow.finish outcome (env.clock .finishNotification)) (fun _ => rfl) = .ok db' := by
    unfold Database.updateOutbox
    rw [if_pos hselected]
    exact ⟨_, rfl⟩
  have htx : Store.finishNotificationTx env n outcome db = .ok (db', true) := by
    unfold Store.finishNotificationTx Env.exec
    simp only [hcarries.fails, Bool.false_eq_true, if_false, hupdate, countP_heldBy hrow hheld,
      decide_true]
    rfl
  have hfinish : Store.finishNotification env db n outcome = (db', .ok true) := by
    unfold Store.finishNotification
    rw [if_neg (not_refused hvalid), submit_carried hcarries htx]
  rw [hfinish]
  refine ⟨rfl, ?_⟩
  rw [Store.lookup_updateOutbox hupdate hlookup]
  exact congrArg some (if_pos hheld)

end Record

/-! ## The claim -/

section Attempt

variable {cfg : Config} {decoders : Decoders} {exchange : Body → Exchange} {env : AttemptEnv}
  {n : Notification}

/-- A result that is tried again leaves time and attempts for it. -/
theorem settle_conclusive {r : DeliveryResult} (hr : r.Known)
    (h : cfg.maxAttempts ≤ n.attempts ∨ n.expiresAt ≤ nextAttempt env n r) :
    (settle cfg env n r).state.terminal = true := by
  unfold settle
  split
  · simp only
    split
    · rfl
    · next hattempts =>
      rw [if_pos (h.resolve_left hattempts)]
      rfl
  · next hstate =>
    show r.state.terminal = true
    have hissued := hr.issued
    cases hcase : r.state <;> simp_all [OutboxState.terminal]

theorem settle_dead {r : DeliveryResult} (h : r.state = .dead) :
    (settle cfg env n r).state.terminal = true := by
  unfold settle
  simp [h, OutboxState.terminal]

theorem ofExchange_dead (now : Int) {e : Exchange} (h : Rejects e) :
    (match e with
      | .error e => ofTransportError e
      | .ok r => ofResponse decoders n now r).state = .dead := by
  cases e with
  | error e =>
    cases e with
    | destinationPolicy => rfl
    | certificate => rfl
    | other cancelled => cases h
  | ok r =>
    show (ofResponse decoders n now r).state = .dead
    unfold ofResponse
    rw [h.1, h.2]
    rfl

theorem attempt_conclusive :
    Conclusive cfg decoders exchange env n (attempt cfg decoders exchange env n) := by
  unfold attempt
  by_cases hallowed : cfg.allowed n.chatJid = true
  · by_cases hexpired : env.before.nanos < n.expiresAt
    · simp only [hallowed, Bool.not_true, Bool.false_eq_true, if_false, if_pos hexpired]
      refine ⟨fun e hanswer hrejects => ?_, fun h => settle_conclusive (deliver_known _) (.inl h),
        fun h => settle_conclusive (deliver_known _) (.inr h)⟩
      refine settle_dead ?_
      unfold answer at hanswer
      rw [if_pos ⟨hallowed, hexpired⟩] at hanswer
      obtain ⟨body, hbody, rfl⟩ := Option.map_eq_some_iff.mp hanswer
      unfold deliver
      rw [hbody]
      exact ofExchange_dead _ hrejects
    · simp only [hallowed, Bool.not_true, Bool.false_eq_true, if_false, if_neg hexpired]
      exact ⟨fun _ _ _ => rfl, fun _ => rfl, fun _ => rfl⟩
  · simp only [hallowed, Bool.not_false, if_true]
    exact ⟨fun _ _ _ => rfl, fun _ => rfl, fun _ => rfl⟩

/-- The store takes the outcome of an attempt, which is conclusive, exactly when no
response has a status from 600 on. -/
theorem attempt_recordable_iff :
    (Recordable n (attempt cfg decoders exchange env n) ∧
        Conclusive cfg decoders exchange env n (attempt cfg decoders exchange env n)) ↔
      ∀ r, answer cfg exchange env n = some (.ok r) → r.statusCode.val < 600 := by
  have hstatus : (attempt cfg decoders exchange env n).httpStatus =
      statusOf (answer cfg exchange env n) := attempt_status
  constructor
  · intro h r hanswer
    have hhigh := h.1.valid.2.2.2
    rw [hstatus, hanswer] at hhigh
    simp only [statusOf] at hhigh
    omega
  · intro h
    refine ⟨recordable_of_valid ⟨attempt_known.1, attempt_known.2, ?_⟩ attempt_instant,
      attempt_conclusive⟩
    rw [hstatus]
    cases hanswer : answer cfg exchange env n with
    | none => exact ⟨le_refl 0, by decide⟩
    | some e =>
      cases e with
      | error e => exact ⟨le_refl 0, (by decide : (0 : Int) ≤ 599)⟩
      | ok r =>
        have hr := h r hanswer
        simp only [statusOf]
        omega

end Attempt

/-! ## A sample response -/

/-- A claimed event of schema 1. -/
def sampleClaimed : Notification where
  eventId := "0123456789abcdef0123456789abcdef"
  schemaVersion := 1
  eventType := messageReceived
  chatJid := "15@lid"
  canonicalChatJid := ""
  messageId := "M1"
  eventTimestamp := 1000
  receivedAt := 1000
  expiresAt := 1000000000000
  chatSequence := 0
  senderJid := ""
  senderAltJid := ""
  chatKind := ""
  isFromMe := false
  attempts := 1
  leaseToken := "00112233445566778899aabbccddeeff"

def sampleConfig : Config := ⟨true, ["15@lid"], 5⟩

/-- Every clock shows one instant, and the jitter keeps a delay as it is. -/
def sampleAttempt : AttemptEnv :=
  let now : Reading := ⟨2000, by decide⟩
  ⟨now, now, now, ⟨id, fun _ h => h⟩⟩

/-- A receiver that answers with a status and an empty body. -/
def sampleReceiver (status : Fin 1000) : Body → Exchange := fun _ => .ok ⟨status, "", [], false⟩

def sampleDecoders : Decoders := ⟨fun _ => none, fun _ => none⟩

example : attempt sampleConfig sampleDecoders (sampleReceiver 503) sampleAttempt sampleClaimed =
    ⟨.pending, "http_retry", 503, 5000002000⟩ := by
  decide +kernel

/-- A status of 600 is tried again, and the store refuses it. -/
theorem attempt_unrecordable_of_sampleReceiver :
    ¬ ∀ cfg decoders exchange env n, Recordable n (attempt cfg decoders exchange env n) ∧
      Conclusive cfg decoders exchange env n (attempt cfg decoders exchange env n) := by
  intro hall
  have hvalid := (hall sampleConfig sampleDecoders (sampleReceiver 600) sampleAttempt
    sampleClaimed).1.valid
  revert hvalid
  decide +kernel

end WhatsAppMcp.Bridge.Notify
