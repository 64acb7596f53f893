import WhatsAppMcp.Bridge.Store.Schema

/-!
# The writer of the bridge store

`Store.submitContext` hands a transaction to the single writer, and
`execWriteContext` commits it or rolls it back.  What the transaction does not
decide itself is the environment `Env`: which statements fail, what the clock of
the server shows, which rows another session holds, the random bytes, and
whether the caller still hears the answer.

A statement of the source is a function on the database.  `Env.exec` stands
before it and fails the transaction where the environment says so, so a
transaction can roll back at any of its statements.
-/

namespace WhatsAppMcp.Bridge.Store

/-- The statements of the transactions below, with the two ends of a
transaction. -/
inductive Statement where
  | beginTx
  | insertMessage
  | updateMessage
  | selectMessageBridgeOrigin
  | consumeOutboundOrigin
  | markMessageBridgeOrigin
  | notificationExistsForMessage
  | allocateNotificationSequence
  | insertNotification
  | registerOutboundOrigin (chatJid : String)
  | claimNotification
  | finishNotification
  | maintainNotifications
  | pruneNotifications
  | pruneObservedOutboundOrigins
  | pruneUnobservedOutboundOrigins
  | commit
  deriving DecidableEq, Repr

/-- What one transaction meets outside the database value. -/
structure Env where
  /-- The statement returns an error. -/
  fails : Statement → Bool
  /-- `clock_timestamp()` in the statement. -/
  clock : Statement → Int
  /-- Outbox rows that `SKIP LOCKED` skips. -/
  lockedEvents : List String
  /-- Origin rows that `SKIP LOCKED` skips. -/
  lockedOrigins : List (String × String)
  /-- `rand.Read` of sixteen bytes. -/
  random : Option (Vector UInt8 16)
  /-- The caller gives up, or the answer is lost, after the commit. -/
  unanswered : Bool

/-- The same transaction with its answer heard. -/
def Env.heard (env : Env) : Env := { env with unanswered := false }

/-- Why a transaction returns an error.  `checkViolated` is a `CHECK` constraint
of the outbox, and `constraintViolated` is any other one, with the values that a
column cannot hold. -/
inductive TxError where
  | statementFailed
  | noRows
  | constraintViolated
  | checkViolated
  | messageUpdateMissing
  | messageOriginMarkMissing
  | notificationMetadataInvalid
  | notificationEntropyFailed
  deriving DecidableEq, Repr

/-- The statement is sent, and may fail. -/
def Env.exec (env : Env) (statement : Statement) : Except TxError Unit :=
  if env.fails statement then .error .statementFailed else .ok ()

theorem Env.exec_bind_ok {α : Type} {env : Env} {statement : Statement}
    {next : Unit → Except TxError α} {a : α} (h : (env.exec statement >>= next) = .ok a) :
    next () = .ok a := by
  unfold Env.exec at h
  split at h
  · cases h
  · exact h

/-- `submitContext` with `execWriteContext`: the transaction commits as a whole
or leaves the database as it was.  `none` is the error that the caller sees; on a
cancellation "an admitted operation may have committed". -/
def Env.submit {α : Type} (env : Env) (db : Database)
    (fn : Database → Except TxError (Database × α)) : Database × Option α :=
  if env.fails .beginTx then (db, none)
  else match fn db with
    | .error _ => (db, none)
    | .ok (db', a) =>
      if env.fails .commit then (db, none)
      else (db', if env.unanswered then none else some a)

/-- A transaction leaves the database as it was, or commits what it did.  The
answer to a commit may be lost. -/
theorem Env.submit_cases {α : Type} (env : Env) (db : Database)
    (fn : Database → Except TxError (Database × α)) :
    (env.submit db fn = (db, none) ∧ env.heard.submit db fn = (db, none)) ∨
      ∃ db' a answer, fn db = .ok (db', a) ∧ env.submit db fn = (db', answer) ∧
        (answer = none ∨ answer = some a) ∧ env.heard.submit db fn = (db', some a) := by
  have hheard : env.heard.fails = env.fails := rfl
  unfold Env.submit
  rw [hheard]
  split
  · exact .inl ⟨rfl, rfl⟩
  · split
    · exact .inl ⟨rfl, rfl⟩
    · next db' a hfn =>
      split
      · exact .inl ⟨rfl, rfl⟩
      · refine .inr ⟨db', a, _, hfn, rfl, ?_, rfl⟩
        cases env.unanswered with
        | true => exact .inl rfl
        | false => exact .inr rfl

/-- `newNotificationID`: the random bytes in hexadecimal. -/
def hexDigits : List Char :=
  ['0', '1', '2', '3', '4', '5', '6', '7', '8', '9', 'a', 'b', 'c', 'd', 'e', 'f']

/-- The two hexadecimal digits of a byte. -/
def hexByte (b : UInt8) : List Char :=
  [hexDigits.getD (b.toNat / 16) '0', hexDigits.getD (b.toNat % 16) '0']

/-- `hex.EncodeToString`. -/
def hexEncode (bytes : List UInt8) : String := String.ofList (bytes.flatMap hexByte)

/-- `newNotificationID`. -/
def Env.newNotificationId (env : Env) : Except TxError String :=
  match env.random with
  | some bytes => .ok (hexEncode bytes.toList)
  | none => .error .notificationEntropyFailed

end WhatsAppMcp.Bridge.Store
