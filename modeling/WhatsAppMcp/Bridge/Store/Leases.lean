import WhatsAppMcp.Bridge.Store.Effects

/-!
# The lease state machine of the outbox

What the calls of the store may do to one row of the outbox, over whole runs and
for rows of both schema versions.

* `Call.Rewrites` lists every way in which a call changes a row, and
  `call_rewrites` says that there is no other.
* `Op.Violates` is a statement that the server refuses because of a `CHECK`
  constraint; `not_violates` excludes it.
* `Call.granted` and `Call.finished` are the lease tokens that a call hands out
  and uses up for one event, read off the row before and after the call.

`outbox_lease_machine` puts them together for every run.
-/

namespace WhatsAppMcp.Bridge.Store

open Trace

/-! ## Statements that the server refuses -/

/-- A notification asked for has an age of at least one microsecond. -/
def Op.Aged : Op → Prop
  | .saveMessage _ (some candidate) => 1000 ≤ candidate.maxAge
  | _ => True

/-- A statement of the call violates a `CHECK` constraint of the outbox. -/
def Op.Violates (op : Op) (env : Env) (db : Database) : Prop :=
  match op with
  | .saveMessage (some m) request => saveMessageTx env m request db = .error .checkViolated
  | .claimNotification allowed maxAttempts lease =>
    ∃ token, claimNotificationTx env allowed maxAttempts token (milliseconds lease) db =
      .error .checkViolated
  | .finishNotification n outcome =>
    (Store.finishNotification env db n outcome).2 ≠ .error .notificationOutcomeInvalid ∧
      finishNotificationTx env n outcome db = .error .checkViolated
  | .maintainNotifications enabled allowed maxAttempts retention limit =>
    maintainNotificationsTx env enabled allowed maxAttempts (milliseconds retention) limit.toNat
      db = .error .checkViolated
  | _ => False

/-- Every row of the outbox satisfies the `CHECK` constraints. -/
def Database.Coherent (db : Database) : Prop := ∀ n ∈ db.outbox.rows, n.Coherent

/-- A computation avoids an error when its steps do. -/
theorem bind_ne_error {ε α β : Type} {x : Except ε α} {f : α → Except ε β} {e : ε}
    (hx : x ≠ .error e) (hf : ∀ a, x = .ok a → f a ≠ .error e) : (x >>= f) ≠ .error e := by
  cases x with
  | error e' =>
    intro h
    have herror : (Except.error e' : Except ε β) = .error e := h
    cases herror
    exact hx rfl
  | ok a => exact hf a rfl

theorem exec_bind_ne_check {α : Type} {env : Env} {statement : Statement}
    {next : Unit → Except TxError α} (h : next () ≠ .error .checkViolated) :
    (env.exec statement >>= next) ≠ .error .checkViolated := by
  refine bind_ne_error ?_ fun _ _ => h
  unfold Env.exec
  split <;> simp

theorem updateOutbox_ne_check {db : Database} {sel : OutboxRow → Bool} {f : OutboxRow → OutboxRow}
    {hf : ∀ n, (f n).toOutboxEvent = n.toOutboxEvent}
    (h : ∀ n ∈ db.outbox.rows, sel n = true → (f n).Coherent) :
    db.updateOutbox sel f hf ≠ .error .checkViolated := by
  unfold Database.updateOutbox
  rw [if_pos h]
  split <;> simp

/-! ## A new row -/

theorem hexByte_opaque (b : UInt8) :
    ∀ c ∈ hexByte b, (c.isDigit || ('a' ≤ c && c ≤ 'f')) = true := by
  have hdigit : ∀ k < 16, ((hexDigits.getD k '0').isDigit ||
      ('a' ≤ hexDigits.getD k '0' && hexDigits.getD k '0' ≤ 'f')) = true := by decide
  have hb : b.toNat < 256 := b.toNat_lt
  intro c hc
  simp only [hexByte, List.mem_cons, List.not_mem_nil, or_false] at hc
  rcases hc with rfl | rfl
  · exact hdigit _ (by omega)
  · exact hdigit _ (by omega)

theorem hexEncode_opaque (bytes : Vector UInt8 16) : isOpaqueId (hexEncode bytes.toList) = true := by
  have hlength : ∀ l : List UInt8, (l.flatMap hexByte).length = 2 * l.length := by
    intro l
    induction l with
    | nil => rfl
    | cons b l ih =>
      rw [List.flatMap_cons, List.length_append, ih]
      simp only [hexByte, List.length_cons, List.length_nil]
      omega
  unfold isOpaqueId hexEncode
  rw [String.toList_ofList, hlength, Bool.and_eq_true, decide_eq_true_eq, List.all_eq_true]
  refine ⟨by simp, fun c hc => ?_⟩
  obtain ⟨b, -, hb⟩ := List.mem_flatMap.mp hc
  exact hexByte_opaque b c hb

/-- The deadline of a notification lies behind its receipt. -/
theorem truncate_expiry (t age : Int) (hage : 1000 ≤ age) :
    truncateMicrosecond t < truncateMicrosecond (truncateMicrosecond t + age) := by
  unfold truncateMicrosecond
  omega

theorem fresh_coherent {e : OutboxEvent} (h : e.Coherent) : e.fresh.Coherent := by
  refine ⟨h, .inr ⟨?_, rfl, rfl⟩, .inr ⟨rfl, rfl⟩, ?_, ?_⟩
  · show OutboxState.pending ≠ OutboxState.leased
    simp
  · show (0 : Int) ≤ 0
    omega
  · show (0 : Int) ≤ 599
    omega

/-- A valid request makes a row that satisfies the constraints. -/
theorem notificationEvent_coherent {m : MessageRow} {candidate : NotificationRequest}
    {env : Env} {eventId : String} {sequence : Nat}
    (hvalid : validV2NotificationRequest m candidate = true)
    (hid : env.newNotificationId = .ok eventId) (hsequence : 0 < sequence)
    (hage : 1000 ≤ candidate.maxAge) :
    (notificationEvent m candidate eventId sequence).fresh.Coherent := by
  have hid : isOpaqueId eventId = true := by
    unfold Env.newNotificationId at hid
    split at hid
    · cases hid
      exact hexEncode_opaque _
    · cases hid
  refine fresh_coherent ⟨hid, .inr rfl, rfl, truncate_expiry _ _ hage, .inr ?_⟩
  unfold validV2NotificationRequest at hvalid
  split at hvalid
  · cases hvalid
  · next hfields =>
    simp only [Bool.or_eq_true, Bool.and_eq_true, not_or, not_and, Bool.not_eq_true',
      Bool.not_eq_true, Bool.not_eq_false, decide_eq_true_eq] at hfields
    obtain ⟨⟨-, hsender⟩, halt⟩ := hfields
    refine ⟨rfl, decide_eq_true hsequence, hsender, ?_, rfl, ?_⟩
    · show (if candidate.senderAltJid ≠ "" then some candidate.senderAltJid else none).all
        isParticipantJid = true
      split
      · next hne => exact halt hne
      · rfl
    · split at hvalid
      · next hkind =>
        simp only [Bool.and_eq_true, decide_eq_true_eq] at hvalid
        exact .inl ⟨congrArg some hkind, hvalid.1, congrArg some hvalid.2⟩
      · split at hvalid
        · next hkind =>
          simp only [Bool.and_eq_true] at hvalid
          exact .inr ⟨congrArg some hkind, hvalid.1, hvalid.2⟩
        · cases hvalid

/-! ## What a call does to a row -/

/-- The ways in which a call rewrites or deletes a row. -/
inductive Call.Rewrites (c : Call) (n : OutboxRow) : Option OutboxRow → Prop
  | kept : c.Rewrites n (some n)
  | claimed {allowed : List String} {maxAttempts lease : Int} {token : String}
      (call : c.op = .claimNotification allowed maxAttempts lease)
      (due : n.due (c.env.clock .claimNotification) allowed maxAttempts = true)
      (generated : c.env.newNotificationId = .ok token) :
      c.Rewrites n (some (n.lease token
        (c.env.clock .claimNotification + milliseconds lease * millisecond)))
  | finished {claimed : Notification} {outcome : NotificationOutcome}
      (call : c.op = .finishNotification claimed outcome)
      (held : n.heldBy (c.env.clock .finishNotification) claimed.eventId claimed.leaseToken = true)
      (state : outcome.state ≠ .leased)
      (status : 0 ≤ outcome.httpStatus ∧ outcome.httpStatus ≤ 599) :
      c.Rewrites n (some (n.finish outcome (c.env.clock .finishNotification)))
  | maintained {enabled : Bool} {allowed : List String} {maxAttempts retention limit : Int}
      (call : c.op = .maintainNotifications enabled allowed maxAttempts retention limit)
      (held : n.maintained (c.env.clock .maintainNotifications) enabled maxAttempts allowed = true) :
      c.Rewrites n
        (some (n.maintain (c.env.clock .maintainNotifications) enabled maxAttempts allowed))
  | pruned {enabled : Bool} {allowed : List String} {maxAttempts retention limit : Int}
      {last : OutboxRow}
      (call : c.op = .maintainNotifications enabled allowed maxAttempts retention limit)
      (rewritten : last = n ∨
        (n.maintained (c.env.clock .maintainNotifications) enabled maxAttempts allowed = true ∧
          last = n.maintain (c.env.clock .maintainNotifications) enabled maxAttempts allowed))
      (prunable : last.prunable (c.env.clock .pruneNotifications)
        (milliseconds retention * millisecond) = true) :
      c.Rewrites n none

variable {c : Call} {db db' : Database} {n n' : OutboxRow} {eventId token : String}

/-- An update rewrites the selected rows and no other row. -/
theorem lookup_updateOutbox {sel : OutboxRow → Bool} {f : OutboxRow → OutboxRow}
    {hf : ∀ n, (f n).toOutboxEvent = n.toOutboxEvent} (h : db.updateOutbox sel f hf = .ok db')
    (hn : db.outbox.lookup eventId = some n) :
    db'.outbox.lookup eventId = some (if sel n then f n else n) := by
  obtain ⟨-, rfl⟩ := updateOutbox_eq h
  rw [Table.lookup_update, hn, Option.map_some]

theorem claim_rewrites {allowed : List String} {maxAttempts lease : Int}
    (call : c.op = .claimNotification allowed maxAttempts lease)
    (hn : db.outbox.lookup eventId = some n) :
    c.Rewrites n ((claimNotification c.env db allowed maxAttempts lease).1.outbox.lookup
      eventId) := by
  rcases claimNotification_cases c.env db allowed maxAttempts lease
    with ⟨hsame, -⟩ | ⟨token, result, htoken, htx, -⟩
  · rw [hsame, hn]
    exact .kept
  · rcases claimNotificationTx_spec htx
      with ⟨hsame, -⟩ | ⟨candidate, claimed, hmem, hdue, hupdate, -, -⟩
    · rw [hsame, hn]
      exact .kept
    · rw [lookup_updateOutbox hupdate hn]
      split
      · next hkey =>
        rw [decide_eq_true_eq] at hkey
        obtain rfl := Table.eq_of_key (Table.mem_of_lookup hn) hmem hkey
        exact .claimed call hdue htoken
      · exact .kept

theorem finish_rewrites {claimed : Notification} {outcome : NotificationOutcome}
    (call : c.op = .finishNotification claimed outcome)
    (hn : db.outbox.lookup eventId = some n) :
    c.Rewrites n ((finishNotification c.env db claimed outcome).1.outbox.lookup eventId) := by
  rcases finishNotification_cases c.env db claimed outcome
    with ⟨hsame, -⟩ | ⟨⟨hstate, hstatus⟩, changed, htx, -⟩
  · rw [hsame, hn]
    exact .kept
  · rw [lookup_updateOutbox (finishNotificationTx_spec htx).1 hn]
    split
    · next hheld => exact .finished call hheld hstate hstatus
    · exact .kept

/-- The first statement of a maintenance rewrites a row that it may. -/
theorem lookup_maintain {env : Env} {enabled : Bool} {maxAttempts : Int} {allowed : List String}
    {limit : Nat} (h : db.maintainNotifications env enabled maxAttempts allowed limit = .ok db')
    (hn : db.outbox.lookup eventId = some n) :
    ∃ last, db'.outbox.lookup eventId = some last ∧ (last = n ∨
      (n.maintained (env.clock .maintainNotifications) enabled maxAttempts allowed = true ∧
        last = n.maintain (env.clock .maintainNotifications) enabled maxAttempts allowed)) := by
  unfold Database.maintainNotifications at h
  refine ⟨_, lookup_updateOutbox h hn, ?_⟩
  split
  · next hany =>
    obtain ⟨candidate, hcandidate, hkey⟩ := List.any_eq_true.mp hany
    obtain ⟨hmem, hsel⟩ := Table.mem_of_first hcandidate
    rw [decide_eq_true_eq] at hkey
    obtain rfl := Table.eq_of_key hmem (Table.mem_of_lookup hn) hkey
    rw [Bool.and_eq_true] at hsel
    exact .inr ⟨hsel.1, rfl⟩
  · exact .inl rfl

/-- A prune keeps a row or deletes one that it may. -/
theorem lookup_prune {env : Env} {retention : Int} {limit : Nat}
    (hn : db.outbox.lookup eventId = some n) :
    (db.pruneNotifications env retention limit).outbox.lookup eventId = some n ∨
      ((db.pruneNotifications env retention limit).outbox.lookup eventId = none ∧
        n.prunable (env.clock .pruneNotifications) retention = true) := by
  unfold Database.pruneNotifications
  simp only [Table.lookup_delete, hn]
  cases hprune : (db.outbox.first (fun n => n.prunable (env.clock .pruneNotifications) retention &&
      n.eventId ∉ env.lockedEvents) OutboxRow.terminalRank limit).any
      (fun r => r.eventId = n.eventId) with
  | false => exact .inl (Option.filter_some_pos (by simpa using hprune))
  | true =>
    refine .inr ⟨Option.filter_some_neg (by simpa using hprune), ?_⟩
    obtain ⟨candidate, hcandidate, hkey⟩ := List.any_eq_true.mp hprune
    obtain ⟨hmem, hsel⟩ := Table.mem_of_first hcandidate
    rw [decide_eq_true_eq] at hkey
    obtain rfl := Table.eq_of_key hmem (Table.mem_of_lookup hn) hkey
    rw [Bool.and_eq_true] at hsel
    exact hsel.1

theorem maintain_rewrites {enabled : Bool} {allowed : List String}
    {maxAttempts retention limit : Int}
    (call : c.op = .maintainNotifications enabled allowed maxAttempts retention limit)
    (hn : db.outbox.lookup eventId = some n) :
    c.Rewrites n ((maintainNotifications c.env db enabled allowed maxAttempts retention
      limit).1.outbox.lookup eventId) := by
  rcases maintainNotifications_cases c.env db enabled allowed maxAttempts retention limit
    with hsame | htx
  · rw [hsame, hn]
    exact .kept
  · obtain ⟨db₁, hmaintain, houtbox, -⟩ := maintainNotificationsTx_spec htx
    rw [houtbox]
    obtain ⟨last, hlast, hrewritten⟩ := lookup_maintain hmaintain hn
    rcases lookup_prune hlast with hkept | ⟨hgone, hprunable⟩
    · rw [hkept]
      rcases hrewritten with rfl | ⟨hheld, rfl⟩
      · exact .kept
      · exact .maintained call hheld
    · rw [hgone]
      exact .pruned call hrewritten hprunable

/-- A save keeps the rows, and adds at most one, which is fresh. -/
theorem Database.Saves.rows {env : Env} {m : MessageRow} {request : Option NotificationRequest}
    (h : db.Saves env m request db') (eventId : String) :
    db'.outbox.lookup eventId = db.outbox.lookup eventId ∨
      db.outbox.lookup eventId = none ∧ ∃ e : OutboxEvent, e.fresh.Checks ∧
        db'.outbox.lookup eventId = some e.fresh := by
  cases h with
  | silent wrote => exact .inl (by rw [wrote.outbox])
  | @notified db₁ candidate id sequence wrote asked valid generated enqueued =>
    rw [Table.lookup_insert enqueued.outbox]
    split
    · next hkey =>
      refine .inr ⟨?_, _, enqueued.checks, rfl⟩
      rw [← wrote.outbox, hkey]
      exact Table.lookup_of_insert enqueued.outbox
    · exact .inl (by rw [wrote.outbox])

/-- Every call rewrites a row in one of these ways. -/
theorem call_rewrites (c : Call) (hn : db.outbox.lookup eventId = some n) :
    c.Rewrites n ((c.op.run c.env db).outbox.lookup eventId) := by
  have hkept : ∀ o, o = db.outbox.lookup eventId → c.Rewrites n o := by
    intro o ho
    rw [ho, hn]
    exact .kept
  cases hop : c.op with
  | upsertChat jid => exact hkept _ rfl
  | saveMessage msg request =>
    apply hkept
    show (saveMessage c.env db msg request).1.outbox.lookup eventId = _
    rcases saveMessage_cases c.env db msg request with ⟨hsame, -⟩ | ⟨m, -, hsaves, -⟩
    · rw [hsame]
    · rcases hsaves.rows eventId with hrow | ⟨hfree, -⟩
      · exact hrow
      · rw [hfree] at hn
        cases hn
  | registerOutboundOrigins messageId chatJids =>
    apply hkept
    show (registerOutboundOrigins c.env db messageId chatJids).1.outbox.lookup eventId = _
    rcases registerOutboundOrigins_cases c.env db messageId chatJids with ⟨hsame, -⟩ | hregisters
    · rw [hsame]
    · rw [hregisters.frame]
  | claimNotification allowed maxAttempts lease => exact claim_rewrites hop hn
  | finishNotification claimed outcome => exact finish_rewrites hop hn
  | maintainNotifications enabled allowed maxAttempts retention limit =>
    exact maintain_rewrites hop hn

/-- A row that was not there before is fresh, and a save inserted it. -/
theorem call_adds (c : Call) (hfree : db.outbox.lookup eventId = none)
    (hn : (c.op.run c.env db).outbox.lookup eventId = some n) :
    ∃ (e : OutboxEvent) (msg : Option MessageRow) (request : Option NotificationRequest),
      e.fresh.Checks ∧ n = e.fresh ∧ c.op = .saveMessage msg request := by
  have hevents : ∀ db' : Database, db'.events.Sublist db.events →
      db'.outbox.lookup eventId ≠ some n := by
    intro db' hsub hrow
    obtain ⟨hmem, hkey⟩ := Table.lookup_eq_some.mp hrow
    obtain ⟨n₀, hn₀, heq⟩ := List.mem_map.mp (hsub.subset (List.mem_map_of_mem hmem))
    refine Table.lookup_eq_none.mp hfree n₀ hn₀ ?_
    rw [← hkey]
    exact congrArg OutboxEvent.eventId heq
  have hsame : (c.op.run c.env db).outbox ≠ db.outbox := by
    intro h
    rw [h, hfree] at hn
    cases hn
  cases c.moves db with
  | stays same => exact absurd (congrArg Database.outbox same) hsame
  | chat chats next => exact absurd (congrArg Database.outbox next) hsame
  | registers call registered => exact absurd (congrArg Database.outbox registered.frame) hsame
  | delivers delivered => exact absurd hn (hevents _ delivered.events)
  | saves call saved =>
    rcases saved.rows eventId with hrow | ⟨-, e, hchecks, hrow⟩
    · rw [hn, hfree] at hrow
      cases hrow
    · rw [hn] at hrow
      cases hrow
      exact ⟨e, _, _, hchecks, rfl, call⟩

/-! ## The constraints hold -/

theorem lease_coherent {now : Int} {allowed : List String} {maxAttempts : Int} {token : String}
    {leaseUntil : Int} (h : n.Coherent) (hdue : n.due now allowed maxAttempts = true) :
    (n.lease token leaseUntil).Coherent := by
  obtain ⟨hevent, -, hterminal, hstatus⟩ := h
  have hpending : n.state = .pending := by
    simp only [OutboxRow.due, Bool.and_eq_true, decide_eq_true_eq] at hdue
    exact hdue.1.1.1.1
  refine ⟨hevent, .inl ⟨rfl, rfl, rfl⟩, .inr ⟨rfl, ?_⟩, hstatus⟩
  rcases hterminal with ⟨hstate, -⟩ | ⟨-, hnone⟩
  · rw [hpending] at hstate
    cases hstate
  · exact hnone

theorem finish_coherent {outcome : NotificationOutcome} {now : Int} (h : n.Coherent)
    (hstate : outcome.state ≠ .leased) (hstatus : 0 ≤ outcome.httpStatus ∧ outcome.httpStatus ≤ 599) :
    (n.finish outcome now).Coherent := by
  refine ⟨h.1, .inr ⟨hstate, rfl, rfl⟩, ?_, hstatus⟩
  unfold OutboxRow.TerminalTimestampCoherent OutboxRow.finish
  cases hcase : outcome.state <;> simp [OutboxState.terminal]
  exact hstate hcase

theorem maintain_coherent {now : Int} {enabled : Bool} {maxAttempts : Int} {allowed : List String}
    (h : n.Coherent) : (n.maintain now enabled maxAttempts allowed).Coherent := by
  refine ⟨h.1, .inr ⟨?_, rfl, rfl⟩, ?_, h.2.2.2⟩
  · unfold OutboxRow.maintain
    split <;> simp
  · unfold OutboxRow.TerminalTimestampCoherent OutboxRow.maintain
    cases n.retired now enabled maxAttempts allowed <;> simp [OutboxState.terminal]

/-- A call keeps the constraints. -/
theorem call_coherent (c : Call) (h : db.Coherent) : (c.op.run c.env db).Coherent := by
  intro n' hn'
  have hrow := Table.lookup_of_mem (t := (c.op.run c.env db).outbox) hn'
  cases hn : db.outbox.lookup n'.eventId with
  | none =>
    obtain ⟨e, -, -, hchecks, rfl, -⟩ := call_adds c hn hrow
    exact hchecks.coherent
  | some n =>
    have hcoherent : n.Coherent := h n (Table.mem_of_lookup hn)
    have hrewrites := call_rewrites c hn
    rw [hrow] at hrewrites
    cases hrewrites with
    | kept => exact hcoherent
    | claimed call due => exact lease_coherent hcoherent due
    | finished call held state status => exact finish_coherent hcoherent state status
    | maintained call held => exact maintain_coherent hcoherent

theorem coherent_run {s s' : System} {calls : List Call} (run : Exec System.Step s calls s')
    (h : s.db.Coherent) : s'.db.Coherent := by
  apply run.invariant (P := fun t => t.db.Coherent) h
  intro t c t' hcoherent hstep
  rw [hstep.next]
  exact call_coherent c hcoherent

theorem writeMessage_ne_check (env : Env) (m : MessageRow) (db : Database) :
    writeMessage env m db ≠ .error .checkViolated := by
  unfold writeMessage
  refine exec_bind_ne_check (bind_ne_error ?_ fun inserted _ => ?_)
  · unfold Database.insertMessage
    split
    · simp
    · split <;> simp
  · cases inserted with
    | some db => simp [pure, Except.pure]
    | none =>
      refine exec_bind_ne_check (bind_ne_error ?_ fun updated _ => ?_)
      · unfold Database.updateMessage
        simp only
        split <;> simp
      · simp only
        split
        · simp [throw, throwThe, MonadExceptOf.throw]
        · refine exec_bind_ne_check ?_
          split <;> simp [throw, throwThe, MonadExceptOf.throw, pure, Except.pure]

theorem classifyOrigin_ne_check (env : Env) (m : MessageRow) (origin : Bool) (db : Database) :
    classifyOrigin env m origin db ≠ .error .checkViolated := by
  unfold classifyOrigin
  split
  · refine exec_bind_ne_check (bind_ne_error ?_ fun consumed _ => ?_)
    · unfold Database.consumeOutboundOrigin
      split
      · simp
      · simp only
        split <;> simp
    · obtain ⟨db₁, isMatched⟩ := consumed
      cases isMatched with
      | false => simp [pure, Except.pure]
      | true =>
        refine exec_bind_ne_check ?_
        simp only
        split <;> simp [throw, throwThe, MonadExceptOf.throw, pure, Except.pure]
  · simp [pure, Except.pure]

theorem enqueueNotification_ne_check {env : Env} {m : MessageRow} {candidate : NotificationRequest}
    (hage : 1000 ≤ candidate.maxAge) (db : Database) :
    enqueueNotification env m candidate db ≠ .error .checkViolated := by
  unfold enqueueNotification
  split
  · simp [throw, throwThe, MonadExceptOf.throw]
  · next hvalid =>
    refine bind_ne_error ?_ fun eventId hid => ?_
    · unfold Env.newNotificationId
      split <;> simp
    · refine exec_bind_ne_check (bind_ne_error ?_ fun allocated hallocated => ?_)
      · unfold Database.allocateNotificationSequence
        split
        · split <;> simp
        · simp only
          split <;> simp
      · have hpositive : 0 < allocated.2 := by
          unfold Database.allocateNotificationSequence at hallocated
          split at hallocated
          · split at hallocated
            · cases hallocated
              exact Nat.one_pos
            · cases hallocated
          · simp only at hallocated
            split at hallocated
            · cases hallocated
              exact Nat.succ_pos _
            · cases hallocated
        have hcoherent := notificationEvent_coherent (by simpa using hvalid) hid hpositive hage
        refine exec_bind_ne_check ?_
        unfold Database.insertNotification
        rw [if_pos hcoherent]
        split
        · split <;> simp
        · simp

theorem saveMessageTx_ne_check {env : Env} {m : MessageRow} {request : Option NotificationRequest}
    (hage : (Op.saveMessage (some m) request).Aged) (db : Database) :
    saveMessageTx env m request db ≠ .error .checkViolated := by
  unfold saveMessageTx
  refine bind_ne_error (writeMessage_ne_check env m db) fun written _ => ?_
  refine bind_ne_error (classifyOrigin_ne_check env m _ _) fun classified _ => ?_
  cases request with
  | none => simp [pure, Except.pure]
  | some candidate =>
    simp only
    split
    · simp [pure, Except.pure]
    · refine bind_ne_error ?_ fun notified _ => ?_
      · unfold alreadyNotified
        split
        · simp [pure, Except.pure]
        · refine exec_bind_ne_check ?_
          simp [pure, Except.pure]
      · split
        · simp [pure, Except.pure]
        · refine bind_ne_error (enqueueNotification_ne_check hage _) fun db₁ _ => ?_
          simp [pure, Except.pure]

theorem claimNotificationTx_ne_check {env : Env} {allowed : List String} {maxAttempts : Int}
    {token : String} {leaseMilliseconds : Int} (h : db.Coherent) :
    claimNotificationTx env allowed maxAttempts token leaseMilliseconds db ≠
      .error .checkViolated := by
  unfold claimNotificationTx
  refine exec_bind_ne_check (bind_ne_error ?_ fun claimed _ => ?_)
  · unfold Database.claimNotification
    simp only
    split
    · simp
    · next candidate rest hfirst =>
      refine bind_ne_error (updateOutbox_ne_check fun n hn hkey => ?_) fun db₁ _ => ?_
      · obtain ⟨hmem, hsel⟩ := Table.mem_of_first (hfirst ▸ List.mem_cons_self)
        rw [Bool.and_eq_true] at hsel
        rw [decide_eq_true_eq] at hkey
        obtain rfl := Table.eq_of_key hn hmem hkey
        exact lease_coherent (h n hn) hsel.1
      · simp [pure, Except.pure]
  · obtain ⟨db₁, row⟩ := claimed
    cases row with
    | none => simp [pure, Except.pure]
    | some row =>
      refine bind_ne_error ?_ fun _ _ => by simp [pure, Except.pure]
      unfold populateClaimedNotification
      simp only
      split
      · split <;> simp
      · split
        · split
          · split <;> simp
          · simp
        · simp

theorem finishNotificationTx_ne_check {env : Env} {claimed : Notification}
    {outcome : NotificationOutcome} (h : db.Coherent) (hstate : outcome.state ≠ .leased)
    (hstatus : 0 ≤ outcome.httpStatus ∧ outcome.httpStatus ≤ 599) :
    finishNotificationTx env claimed outcome db ≠ .error .checkViolated := by
  unfold finishNotificationTx
  refine exec_bind_ne_check (bind_ne_error (updateOutbox_ne_check fun n hn _ => ?_) fun db₁ _ => ?_)
  · exact finish_coherent (h n hn) hstate hstatus
  · simp [pure, Except.pure]

theorem maintainNotificationsTx_ne_check {env : Env} {enabled : Bool} {allowed : List String}
    {maxAttempts retentionMilliseconds : Int} {limit : Nat} (h : db.Coherent) :
    maintainNotificationsTx env enabled allowed maxAttempts retentionMilliseconds limit db ≠
      .error .checkViolated := by
  unfold maintainNotificationsTx
  refine exec_bind_ne_check (bind_ne_error ?_ fun db₁ _ => ?_)
  · unfold Database.maintainNotifications
    exact updateOutbox_ne_check fun n hn _ => maintain_coherent (h n hn)
  · refine exec_bind_ne_check (exec_bind_ne_check (exec_bind_ne_check ?_))
    simp [pure, Except.pure]

/-- No statement of a call violates a constraint. -/
theorem not_violates {op : Op} {env : Env} (h : db.Coherent) (hage : op.Aged) :
    ¬ op.Violates env db := by
  cases op with
  | upsertChat jid => exact id
  | saveMessage msg request =>
    cases msg with
    | none => exact id
    | some m => exact saveMessageTx_ne_check hage db
  | registerOutboundOrigins messageId chatJids => exact id
  | claimNotification allowed maxAttempts lease =>
    rintro ⟨token, hviolates⟩
    exact claimNotificationTx_ne_check h hviolates
  | finishNotification claimed outcome =>
    rintro ⟨hissued, hviolates⟩
    unfold finishNotification at hissued
    split at hissued
    · exact hissued rfl
    · next hvalid =>
      simp only [Bool.or_eq_true, decide_eq_true_eq, not_or, not_lt] at hvalid
      exact finishNotificationTx_ne_check h hvalid.1.1.2 ⟨hvalid.1.2, hvalid.2⟩ hviolates
  | maintainNotifications enabled allowed maxAttempts retention limit =>
    exact maintainNotificationsTx_ne_check h

/-! ## Lease tokens -/

/-- The token that holds the row of an event. -/
def Database.holder (db : Database) (eventId : String) : Option String :=
  (db.outbox.lookup eventId).bind OutboxRow.leaseToken

/-- The call changes the row of an event. -/
def Call.changes (c : Call) (db : Database) (eventId : String) : Bool :=
  (c.op.run c.env db).outbox.lookup eventId ≠ db.outbox.lookup eventId

/-- The token under which a claim leases the row of an event. -/
def Call.granted (c : Call) (db : Database) (eventId : String) : Option String :=
  match c.op with
  | .claimNotification _ _ _ =>
    if c.changes db eventId then (c.op.run c.env db).holder eventId else none
  | _ => none

/-- The token under which an outcome changes the row of an event. -/
def Call.finished (c : Call) (db : Database) (eventId : String) : Option String :=
  match c.op with
  | .finishNotification claimed _ => if c.changes db eventId then some claimed.leaseToken else none
  | _ => none

theorem quiet_of_same (h : (c.op.run c.env db).outbox.lookup eventId = db.outbox.lookup eventId) :
    c.granted db eventId = none ∧ c.finished db eventId = none := by
  have hsame : c.changes db eventId = false := by simp [Call.changes, h]
  unfold Call.granted Call.finished
  rw [hsame]
  constructor
  · split <;> simp
  · split <;> simp

/-- A claim that changes a row grants the token that holds it then. -/
theorem granted_of_change {allowed : List String} {maxAttempts lease : Int}
    (call : c.op = .claimNotification allowed maxAttempts lease)
    (hchange : (c.op.run c.env db).outbox.lookup eventId ≠ db.outbox.lookup eventId) :
    c.granted db eventId = (c.op.run c.env db).holder eventId := by
  unfold Call.granted
  split
  · exact if_pos (decide_eq_true hchange)
  · next hother => exact absurd call (hother _ _ _)

theorem lease_ne {leaseUntil : Int} : n.lease token leaseUntil ≠ n := by
  intro h
  have hattempts : n.attempts + 1 = n.attempts := congrArg OutboxRow.attempts h
  omega

/-- One call: a token that it uses up held the row, and a token that holds the
row afterwards held it before or was granted. -/
theorem tokens_step (c : Call) (db : Database) (eventId token : String) :
    (c.finished db eventId).toList.count token +
        ((c.op.run c.env db).holder eventId).toList.count token ≤
      (db.holder eventId).toList.count token + (c.granted db eventId).toList.count token := by
  cases hn : db.outbox.lookup eventId with
  | none =>
    cases hn' : (c.op.run c.env db).outbox.lookup eventId with
    | none =>
      obtain ⟨-, hfinished⟩ := quiet_of_same (hn'.trans hn.symm)
      simp [Database.holder, hn', hfinished]
    | some n' =>
      obtain ⟨e, msg, request, -, rfl, call⟩ := call_adds c hn hn'
      have hfinished : c.finished db eventId = none := by simp [Call.finished, call]
      simp [Database.holder, hn', hfinished, OutboxEvent.fresh]
  | some n =>
    have hrewrites := call_rewrites c hn
    generalize hn' : (c.op.run c.env db).outbox.lookup eventId = o at hrewrites
    cases hrewrites with
    | kept =>
      obtain ⟨-, hfinished⟩ := quiet_of_same (hn'.trans hn.symm)
      simp [Database.holder, hn', hn, hfinished]
    | @claimed _ _ _ new call due generated =>
      have hfinished : c.finished db eventId = none := by simp [Call.finished, call]
      have hgranted : c.granted db eventId = (c.op.run c.env db).holder eventId := by
        apply granted_of_change call
        simp [hn', hn, lease_ne]
      rw [hfinished, hgranted]
      simp
    | @finished claimed outcome call held state status =>
      have hholder : db.holder eventId = some claimed.leaseToken := by
        simp only [OutboxRow.heldBy, Bool.and_eq_true, decide_eq_true_eq] at held
        simp [Database.holder, hn, held.1.1.2]
      have hused : (c.finished db eventId).toList.count token ≤ [claimed.leaseToken].count token := by
        simp only [Call.finished, call]
        split <;> simp
      have hfree : ((c.op.run c.env db).holder eventId) = none := by
        simp [Database.holder, hn', OutboxRow.finish]
      rw [hholder, hfree]
      simpa using Nat.le_add_right_of_le hused
    | maintained call held =>
      have hfinished : c.finished db eventId = none := by simp [Call.finished, call]
      simp [Database.holder, hn', hfinished, OutboxRow.maintain]
    | pruned call rewritten prunable =>
      have hfinished : c.finished db eventId = none := by simp [Call.finished, call]
      simp [Database.holder, hn', hfinished]

/-- What a run shows of each of its calls, in their order. -/
def System.shown (show? : Call → Database → Option String) : System → List Call → List String
  | _, [] => []
  | s, c :: calls => (show? c s.db).toList ++ System.shown show? (s.after c) calls

/-- The tokens that a run grants for an event. -/
def System.grants (s : System) (calls : List Call) (eventId : String) : List String :=
  s.shown (fun c db => c.granted db eventId) calls

/-- The tokens that finish an event in a run. -/
def System.finishes (s : System) (calls : List Call) (eventId : String) : List String :=
  s.shown (fun c db => c.finished db eventId) calls

theorem shown_snoc {show? : Call → Database → Option String} {s t : System} {calls : List Call}
    (run : Exec System.Step s calls t) (c : Call) :
    s.shown show? (calls ++ [c]) = s.shown show? calls ++ (show? c t.db).toList := by
  have hfold : ∀ {t : System} {calls : List Call}, Exec System.Step s calls t →
      t = calls.foldl System.after s := by
    intro t calls run
    induction run with
    | nil => rfl
    | snoc _ last ih => rw [List.foldl_append, ← ih, last.next, List.foldl_cons, List.foldl_nil]
  rw [hfold run]
  clear run hfold
  induction calls generalizing s with
  | nil => simp [System.shown]
  | cons d calls ih =>
    show (show? d s.db).toList ++ (s.after d).shown show? (calls ++ [c]) = _
    rw [ih, ← List.append_assoc]
    rfl

/-- A run: every use of a token is paid by a grant, or by the holder at the
start. -/
theorem tokens_run {s s' : System} {calls : List Call} (run : Exec System.Step s calls s')
    (eventId token : String) :
    (s.finishes calls eventId).count token + (s'.db.holder eventId).toList.count token ≤
      (s.db.holder eventId).toList.count token + (s.grants calls eventId).count token := by
  induction run with
  | nil => simp [System.finishes, System.grants, System.shown]
  | @snoc calls t u c run last ih =>
    have hstep := tokens_step c t.db eventId token
    unfold System.finishes System.grants at ih ⊢
    rw [shown_snoc run, shown_snoc run, List.count_append, List.count_append, last.next]
    show _ + ((c.op.run c.env t.db).holder eventId).toList.count token ≤ _
    omega

/-! ## The laws of a call -/

/-- What a call may do to a row, where it is after the call. -/
structure Call.Lawful (c : Call) (db : Database) (n : OutboxRow) (after : Option OutboxRow) :
    Prop where
  /-- A terminal row stays as it is until a maintenance prunes it. -/
  terminal : n.state.terminal = true → after = some n ∨ (after = none ∧
    ∃ enabled allowed maxAttempts retention limit,
      c.op = .maintainNotifications enabled allowed maxAttempts retention limit ∧
      n.prunable (c.env.clock .pruneNotifications) (milliseconds retention * millisecond) = true)
  /-- An outcome changes the row only under the token of its live lease. -/
  finished : ∀ token, c.finished db n.eventId = some token → n.state = .leased ∧
    n.leaseToken = some token ∧ n.leaseUntil.any (c.env.clock .finishNotification < ·) = true
  /-- The attempts count the claims. -/
  attempts : ∀ n', after = some n' →
    n'.attempts = n.attempts + (c.granted db n.eventId).toList.length
  /-- A claim keeps to its limit and its allowlist, and takes no expired row. -/
  claimed : ∀ allowed maxAttempts lease token,
    c.op = .claimNotification allowed maxAttempts lease → c.granted db n.eventId = some token →
    (n.attempts : Int) + 1 ≤ maxAttempts ∧ n.chatJid ∈ allowed ∧ n.state = .pending ∧
      c.env.clock .claimNotification < n.expiresAt

theorem due_iff {now : Int} {allowed : List String} {maxAttempts : Int} :
    n.due now allowed maxAttempts = true ↔ n.state = .pending ∧ n.nextAttemptAt ≤ now ∧
      now < n.expiresAt ∧ (n.attempts : Int) < maxAttempts ∧ n.chatJid ∈ allowed := by
  simp [OutboxRow.due, and_assoc]

/-- The laws of the calls that leave the row alone. -/
theorem lawful_kept (h : (c.op.run c.env db).outbox.lookup n.eventId = db.outbox.lookup n.eventId) :
    c.Lawful db n (some n) := by
  obtain ⟨hgranted, hfinished⟩ := quiet_of_same h
  refine ⟨fun _ => .inl rfl, ?_, ?_, ?_⟩
  · simp [hfinished]
  · intro n' hn'
    cases hn'
    simp [hgranted]
  · simp [hgranted]

theorem call_lawful (c : Call) (hn : db.outbox.lookup n.eventId = some n) :
    c.Lawful db n ((c.op.run c.env db).outbox.lookup n.eventId) := by
  have hrewrites := call_rewrites c hn
  generalize hn' : (c.op.run c.env db).outbox.lookup n.eventId = o at hrewrites ⊢
  cases hrewrites with
  | kept => exact lawful_kept (hn'.trans hn.symm)
  | @claimed allowed maxAttempts lease new call due generated =>
    obtain ⟨hpending, -, hexpiry, hlimit, hallowed⟩ := due_iff.mp due
    have hfinished : c.finished db n.eventId = none := by simp [Call.finished, call]
    have hgranted : c.granted db n.eventId = some new := by
      rw [granted_of_change call (by simp [hn', hn, lease_ne])]
      simp [Database.holder, hn', OutboxRow.lease]
    refine ⟨?_, by simp [hfinished], ?_, ?_⟩
    · rw [hpending]
      simp [OutboxState.terminal]
    · intro n' hn'
      cases hn'
      simp [hgranted, OutboxRow.lease]
    · intro allowed' maxAttempts' lease' token' call' _
      rw [call] at call'
      cases call'
      exact ⟨by omega, hallowed, hpending, hexpiry⟩
  | @finished claimed outcome call held state status =>
    simp only [OutboxRow.heldBy, Bool.and_eq_true, decide_eq_true_eq] at held
    obtain ⟨⟨⟨-, htoken⟩, hleased⟩, hlive⟩ := held
    have hgranted : c.granted db n.eventId = none := by simp [Call.granted, call]
    refine ⟨?_, ?_, ?_, by simp [hgranted]⟩
    · rw [hleased]
      simp [OutboxState.terminal]
    · intro token hfinished
      simp only [Call.finished, call] at hfinished
      split at hfinished
      · cases hfinished
        exact ⟨hleased, htoken, hlive⟩
      · cases hfinished
    · intro n' hn'
      cases hn'
      simp [hgranted, OutboxRow.finish]
  | @maintained enabled allowed maxAttempts retention limit call held =>
    have hgranted : c.granted db n.eventId = none := by simp [Call.granted, call]
    have hfinished : c.finished db n.eventId = none := by simp [Call.finished, call]
    refine ⟨?_, by simp [hfinished], ?_, by simp [hgranted]⟩
    · intro hterminal
      have hfalse : n.maintained (c.env.clock .maintainNotifications) enabled maxAttempts allowed =
          false := by
        cases hstate : n.state <;> simp_all [OutboxState.terminal, OutboxRow.maintained]
      rw [hfalse] at held
      cases held
    · intro n' hn'
      cases hn'
      simp [hgranted, OutboxRow.maintain]
  | @pruned enabled allowed maxAttempts retention limit last call rewritten prunable =>
    have hgranted : c.granted db n.eventId = none := by simp [Call.granted, call]
    have hfinished : c.finished db n.eventId = none := by simp [Call.finished, call]
    refine ⟨fun hterminal => ?_, by simp [hfinished], by simp, by simp [hgranted]⟩
    refine .inr ⟨rfl, enabled, allowed, maxAttempts, retention, limit, call, ?_⟩
    rcases rewritten with rfl | ⟨held, -⟩
    · exact prunable
    · cases hstate : n.state <;> simp_all [OutboxState.terminal, OutboxRow.maintained]

/-- A populated notification names its row. -/
theorem populate_ok {claimed : Notification} (h : populateClaimedNotification n = .ok claimed) :
    claimed.eventId = n.eventId ∧ claimed.leaseToken = n.leaseToken.getD "" ∧
      claimed.attempts = n.attempts := by
  unfold populateClaimedNotification at h
  simp only at h
  split at h
  · split at h
    · cases h
    · cases h
      exact ⟨rfl, rfl, rfl⟩
  · split at h
    · split at h
      · split at h
        · cases h
        · cases h
          exact ⟨rfl, rfl, rfl⟩
      · cases h
    · cases h

/-- A claim that hands out a notification has granted its token. -/
theorem granted_of_answer {allowed : List String} {maxAttempts lease : Int} {claimed : Notification}
    (call : c.op = .claimNotification allowed maxAttempts lease)
    (answer : (claimNotification c.env db allowed maxAttempts lease).2 = .ok (some claimed)) :
    c.granted db claimed.eventId = some claimed.leaseToken := by
  have hrun : (c.op.run c.env db) = (claimNotification c.env db allowed maxAttempts lease).1 := by
    rw [call]
    rfl
  rcases claimNotification_cases c.env db allowed maxAttempts lease
    with ⟨-, hnone⟩ | ⟨token, result, -, htx, hresult⟩
  · exact absurd answer (hnone claimed)
  · rcases claimNotificationTx_spec htx
      with ⟨-, rfl⟩ | ⟨candidate, claimed', hmem, -, hupdate, hpopulate, rfl⟩
    · rw [answer] at hresult
      simp at hresult
    · obtain rfl : claimed = claimed' := by
        rw [answer] at hresult
        simpa using hresult
      obtain ⟨hid, htoken, -⟩ := populate_ok hpopulate
      have hid : claimed.eventId = candidate.eventId := hid
      have htoken : claimed.leaseToken = token := htoken
      have hold : db.outbox.lookup candidate.eventId = some candidate := Table.lookup_of_mem hmem
      have hrow := lookup_updateOutbox hupdate hold
      rw [if_pos (decide_eq_true rfl), ← hrun] at hrow
      rw [hid, htoken, granted_of_change call]
      · show ((c.op.run c.env db).outbox.lookup candidate.eventId).bind OutboxRow.leaseToken = _
        rw [hrow]
        rfl
      · rw [hrow, hold]
        simp [lease_ne]

/-- The lease state machine of the outbox.  In every state of a run that starts
with rows which satisfy the `CHECK` constraints:

1. every row satisfies them, and so has a lease token and a deadline exactly
   when it is leased, and a terminal time exactly when it is terminal;
2. no statement of any call violates one of them;
3. a token finishes an event at most as often as it was granted for the event in
   the run or held it at the start, and so at most once where the random tokens
   are distinct, and never once it has lost the row;
4. a claim that hands out a notification has granted the token in it;
5. every next call keeps the laws of the attempts, the limits, the allowlist, the
   expiry and the terminal rows. -/
theorem outbox_lease_machine {s₀ s : System} {calls : List Call} (coherent : s₀.db.Coherent)
    (run : Exec System.Step s₀ calls s) :
    s.db.Coherent ∧ (∀ (op : Op) (env : Env), op.Aged → ¬ op.Violates env s.db) ∧
      (∀ eventId token, (s₀.finishes calls eventId).count token +
          (s.db.holder eventId).toList.count token ≤
        (s₀.db.holder eventId).toList.count token + (s₀.grants calls eventId).count token) ∧
      (∀ eventId, ((s₀.db.holder eventId).toList ++ s₀.grants calls eventId).Nodup →
        (s₀.finishes calls eventId).Nodup) ∧
      (∀ (c : Call) allowed maxAttempts lease claimed,
        c.op = .claimNotification allowed maxAttempts lease →
        (claimNotification c.env s.db allowed maxAttempts lease).2 = .ok (some claimed) →
        c.granted s.db claimed.eventId = some claimed.leaseToken) ∧
      ∀ c s', s.Step c s' → ∀ n ∈ s.db.outbox,
        c.Lawful s.db n (s'.db.outbox.lookup n.eventId) := by
  have hcoherent := coherent_run run coherent
  have htokens := tokens_run run
  refine ⟨hcoherent, fun op env hage => not_violates hcoherent hage, htokens, ?_,
    fun c allowed maxAttempts lease claimed => granted_of_answer, ?_⟩
  · intro eventId hnodup
    rw [List.nodup_iff_count_le_one] at hnodup ⊢
    intro token
    have hpaid := htokens eventId token
    have hone := hnodup token
    rw [List.count_append] at hone
    omega
  · intro c s' hstep n hn
    rw [hstep.next]
    exact call_lawful c (Table.lookup_of_mem hn)

/-! ## A sample run -/

/-- A lease of the sample event, which a maintenance recovers, and a second lease
under which the event is accepted. -/
def sampleDelivery : List Call :=
  let claimed : Notification :=
    { eventId := "03030303030303030303030303030303", schemaVersion := 2
      eventType := messageReceived, chatJid := "15@lid", canonicalChatJid := "15@lid"
      messageId := "M1", eventTimestamp := 1000, receivedAt := 2000, expiresAt := 2000 + hour
      chatSequence := 1, senderJid := "15@lid", senderAltJid := "", chatKind := "operator_private"
      isFromMe := true, attempts := 2, leaseToken := "06060606060606060606060606060606" }
  [sampleCall (.saveMessage (some sampleMessage) (some sampleRequest)) 3000 3,
    sampleCall (.claimNotification ["15@lid"] 2 millisecond) 4000 4,
    sampleCall (.maintainNotifications true ["15@lid"] 2 day 100) 2000000 5,
    sampleCall (.claimNotification ["15@lid"] 2 millisecond) 3000000 6,
    sampleCall (.finishNotification { claimed with leaseToken := "04040404040404040404040404040404" }
      ⟨.dead, "network", 0, 0⟩) 3000000 7,
    sampleCall (.finishNotification claimed ⟨.accepted, "", 202, 3000000⟩) 3000000 8]

/-- The store after these calls. -/
def sampleAccepted : System := sampleDelivery.foldl System.after sampleChat

theorem sampleDelivery_run : Exec System.Step sampleChat sampleDelivery sampleAccepted :=
  (((((Exec.nil.snoc (sampleStep _ _ _ _ (by decide) (by decide))).snoc
    (sampleStep _ _ _ _ (by decide) (by decide))).snoc
    (sampleStep _ _ _ _ (by decide) (by decide))).snoc
    (sampleStep _ _ _ _ (by decide) (by decide))).snoc
    (sampleStep _ _ _ _ (by decide) (by decide))).snoc
    (sampleStep _ _ _ _ (by decide) (by decide))

/-- The token of the first lease finishes nothing, and that of the second does. -/
theorem outbox_lease_machine_of_sampleDelivery :
    sampleAccepted.db.Coherent ∧
      (sampleChat.finishes sampleDelivery "03030303030303030303030303030303").count
        "06060606060606060606060606060606" ≤ 1 := by
  have hstart : sampleChat.db.Coherent := by
    unfold Database.Coherent
    decide
  obtain ⟨hcoherent, -, -, hnodup, -⟩ := outbox_lease_machine hstart sampleDelivery_run
  exact ⟨hcoherent, List.nodup_iff_count_le_one.mp (hnodup _ (by decide)) _⟩

example : sampleChat.finishes sampleDelivery "03030303030303030303030303030303" =
    ["06060606060606060606060606060606"] := by decide

end WhatsAppMcp.Bridge.Store
