import Mathlib.Data.Prod.Lex
import Mathlib.Data.String.Basic
import Mathlib.Data.Int.Order.Basic
import WhatsAppMcp.Bridge.Store.Writer

/-!
# Outbound origins

`bridge/store/outbound_origins.go`: the origin rows that a send registers before
it calls WhatsApp, that the first echo consumes, and that maintenance prunes.
-/

namespace WhatsAppMcp.Bridge.Store

/-- `UnobservedOutboundOriginRetention`. -/
def unobservedOutboundOriginRetention : Int := 90 * day

/-- `ObservedOutboundOriginRetention`. -/
def observedOutboundOriginRetention : Int := 7 * day

/-! ## Statements -/

/-- `registerOutboundOriginSQL`. -/
def Database.registerOutboundOrigin (db : Database) (now : Int) (messageId chatJid : String) :
    Except TxError Database :=
  let row : OriginRow := ⟨messageId, chatJid, now, none⟩
  if row.Checks then
    match db.origins.insert row with
    | some origins => .ok { db with origins := origins }
    | none => .error .constraintViolated
  else .error .constraintViolated

/-- `observed_at = COALESCE(observed_at, clock_timestamp())`. -/
def OriginRow.observe (now : Int) (o : OriginRow) : OriginRow :=
  { o with observedAt := some (o.observedAt.getD now) }

@[simp] theorem OriginRow.observe_key (now : Int) (o : OriginRow) : (o.observe now).key = o.key :=
  rfl

/-- `consumeOutboundOriginSQL`, with whether it returned a row. -/
def Database.consumeOutboundOrigin (db : Database) (now : Int) (messageId chatJid : String) :
    Except TxError (Database × Bool) :=
  match db.origins.lookup (messageId, chatJid) with
  | none => .ok (db, false)
  | some row =>
    if (row.observe now).Checks then
      let origins := db.origins.update (fun o => o.key = (messageId, chatJid))
        (OriginRow.observe now) (OriginRow.observe_key now)
      .ok ({ db with origins := origins }, true)
    else .error .constraintViolated

/-- The order of the origin prunes, by an instant and then by the key. -/
def OriginRow.rank (instant : OriginRow → Int) (o : OriginRow) : Int ×ₗ String ×ₗ String :=
  toLex (instant o, toLex (o.messageId, o.chatJid))

/-- The rows that `pruneUnobservedOutboundOriginsSQL` may delete. -/
def Database.unobservedExpired (now retention : Int) (o : OriginRow) : Bool :=
  o.observedAt = none && o.createdAt ≤ now - retention

/-- `pruneUnobservedOutboundOriginsSQL`. -/
def Database.pruneUnobservedOutboundOrigins (db : Database) (env : Env) (retention : Int)
    (limit : Nat) : Database :=
  let now := env.clock .pruneUnobservedOutboundOrigins
  let candidates := db.origins.first
    (fun o => Database.unobservedExpired now retention o && o.key ∉ env.lockedOrigins)
    (OriginRow.rank OriginRow.createdAt) limit
  { db with origins := db.origins.delete fun o => candidates.any (·.key = o.key) }

/-- The rows that `pruneObservedOutboundOriginsSQL` may delete: the message row
records the bridge origin. -/
def Database.observedExpired (db : Database) (now retention : Int) (o : OriginRow) : Bool :=
  o.observedAt.any (· ≤ now - retention) &&
    (db.messages.lookup o.key).any StoredMessage.isBridgeOrigin

/-- `pruneObservedOutboundOriginsSQL`. -/
def Database.pruneObservedOutboundOrigins (db : Database) (env : Env) (retention : Int)
    (limit : Nat) : Database :=
  let now := env.clock .pruneObservedOutboundOrigins
  let candidates := db.origins.first
    (fun o => db.observedExpired now retention o && o.key ∉ env.lockedOrigins)
    (OriginRow.rank fun o => o.observedAt.getD 0) limit
  { db with origins := db.origins.delete fun o => candidates.any (·.key = o.key) }

/-! ## Registration -/

/-- Why `RegisterOutboundOrigins` returns an error. -/
inductive OriginError where
  | outboundOriginInvalid
  | outboundOriginStoreFailed
  deriving DecidableEq, Repr

/-- The loop of the transaction of `RegisterOutboundOrigins`. -/
def registerOutboundOriginsTx (env : Env) (messageId : String) :
    List String → Database → Except TxError (Database × Unit)
  | [], db => .ok (db, ())
  | chatJid :: chatJids, db => do
    env.exec (.registerOutboundOrigin chatJid)
    let db ← db.registerOutboundOrigin (env.clock (.registerOutboundOrigin chatJid)) messageId
      chatJid
    registerOutboundOriginsTx env messageId chatJids db

/-- `RegisterOutboundOrigins`.  Repeated identities are collapsed, in the order
of their first occurrence. -/
def registerOutboundOrigins (env : Env) (db : Database) (messageId : String)
    (chatJids : List String) : Database × Except OriginError Unit :=
  if messageId = "" || chatJids.isEmpty ||
      chatJids.any (fun chatJid => !isGroupJid chatJid && !isPrivateJid chatJid) then
    (db, .error .outboundOriginInvalid)
  else
    let unique := chatJids.eraseDups
    match env.submit db (registerOutboundOriginsTx env messageId unique) with
    | (db, some ()) => (db, .ok ())
    | (db, none) => (db, .error .outboundOriginStoreFailed)

end WhatsAppMcp.Bridge.Store
