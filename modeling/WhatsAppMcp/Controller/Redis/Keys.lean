import WhatsAppMcp.Controller.Domain
import WhatsAppMcp.Lib.Decimal

/-!
# The keys of the session store

The nine Redis keys that every script of `redis/scripts.ts` receives, as
`redis/keys.ts` lays them out: the application lease and the active identities
are shared, the other seven belong to one chat.  The key names are digests of
the chat id, so a chat here is its id.

A hash whose field names are fixed (`app`, `state`, `lease`) is a record of
optional fields; a missing field is `none`.  A hash whose field names are data
(`events`, `seqs`, `tools`, `identities`) is an association list without
duplicate keys.  Counters are the decimal texts the scripts store; times are
milliseconds.
-/

namespace WhatsAppMcp.Controller.Redis

open RedisStream (Stream)

/-- A Redis hash whose field names are data. -/
abbrev Hash (V : Type) := AList fun _ : String => V

/-- `HVALS`. -/
def Hash.vals {V : Type} (h : Hash V) : List V := h.entries.map fun field => field.2

/-- The owner, epoch and deadline that the two lease hashes have in common. -/
structure Tenure where
  owner : Option String
  epoch : Option String
  untilMs : Option Nat
  deriving DecidableEq, Repr

/-- The application hash. -/
structure AppHash extends Tenure where
  identityRevision : Option String
  deriving DecidableEq, Repr

/-- The lease hash of a chat. -/
structure LeaseHash extends Tenure where
  appOwner : Option String
  appEpoch : Option String
  event : Option String
  repairIntent : Option String
  deriving DecidableEq, Repr

/-- The state hash of a chat. -/
structure StateHash where
  chat : Option String
  cursor : Option String
  revision : Option String
  durability : Option String
  session : Option SessionBinding
  pause : Option PauseReason
  gap : Option Nat
  turnEvent : Option String
  deriving DecidableEq, Repr

/-- A field of the events hash. -/
structure EventRecord (Fp : Type) where
  id : StreamId
  fp : Fp
  seq : String
  raw : NotificationV2
  deriving DecidableEq

/-- A field of the identities hash, `<chat>|<fingerprint>`. -/
structure Identity (Fp : Type) where
  chat : String
  fp : Fp
  deriving DecidableEq

/-- The seven keys of one chat. -/
structure ChatKeys (Fp : Type) where
  state : StateHash
  lease : LeaseHash
  stream : Stream String
  events : Hash (EventRecord Fp)
  seqs : Hash String
  tools : Hash (JournalRecord Fp)
  checkpoint : Option (CheckpointRecord Fp)

/-- The nine keys of one script call. -/
structure Keys (Fp : Type) extends ChatKeys Fp where
  app : AppHash
  identities : Hash (Identity Fp)

/-- The Redis server: its clock, the shared keys and the keys of every chat. -/
structure Store (Fp : Type) where
  time : Nat
  app : AppHash
  identities : Hash (Identity Fp)
  chats : String → ChatKeys Fp

variable {Fp : Type}

/-! ## Empty keys -/

def Tenure.empty : Tenure := ⟨none, none, none⟩
def AppHash.empty : AppHash := ⟨.empty, none⟩
def LeaseHash.empty : LeaseHash := ⟨.empty, none, none, none, none⟩
def StateHash.empty : StateHash := ⟨none, none, none, none, none, none, none, none⟩

/-- The keys of a chat nothing was written for. -/
def ChatKeys.empty : ChatKeys Fp :=
  ⟨.empty, .empty, .empty, ∅, ∅, ∅, none⟩

/-- The empty store at server time `time`. -/
def Store.empty (time : Nat) : Store Fp := ⟨time, .empty, ∅, fun _ => .empty⟩

/-! ## The keys of one call -/

/-- The keys that `scriptKeys(chat)` names. -/
def Store.keys (s : Store Fp) (chat : String) : Keys Fp :=
  { s.chats chat with app := s.app, identities := s.identities }

/-- The store after a script left `k` in the keys of `chat` at time `time`. -/
def Store.write (s : Store Fp) (chat : String) (k : Keys Fp) (time : Nat) : Store Fp where
  time := time
  app := k.app
  identities := k.identities
  chats := Function.update s.chats chat k.toChatKeys

@[simp] theorem Store.keys_app (s : Store Fp) (chat : String) : (s.keys chat).app = s.app := rfl

@[simp] theorem Store.keys_identities (s : Store Fp) (chat : String) :
    (s.keys chat).identities = s.identities := rfl

@[simp] theorem Store.keys_toChatKeys (s : Store Fp) (chat : String) :
    (s.keys chat).toChatKeys = s.chats chat := rfl

theorem Store.write_chats_ne (s : Store Fp) {chat other : String} (k : Keys Fp) (time : Nat)
    (h : other ≠ chat) : (s.write chat k time).chats other = s.chats other := by
  simp [Store.write, h]

@[simp] theorem Store.keys_write (s : Store Fp) (chat : String) (k : Keys Fp) (time : Nat) :
    (s.write chat k time).keys chat = k := by
  simp [Store.keys, Store.write]

theorem Store.write_keys (s : Store Fp) (chat : String) (time : Nat) :
    s.write chat (s.keys chat) time = { s with time := time } := by
  simp [Store.write]

/-! ## Reading counters -/

/-- A counter field: a missing one reads as `0`. -/
def counter (field : Option String) : String := field.getD "0"

/-- `(redis.call('HGET',state,'cursor') or '0')`. -/
def ChatKeys.cursor (k : ChatKeys Fp) : String := counter k.state.cursor

/-- `inc` of a counter field. -/
def bump (field : Option String) : Option String := some (Decimal.inc (counter field))

/-! ## Clocks

A script calls `TIME` several times.  `Clock` gives the reading of each call
site, in program order; it never goes back. -/

/-- The readings of the server clock during one script. -/
structure Clock where
  now : Nat → Nat
  mono : Monotone now

/-- The clock that stands still at `time`. -/
def Clock.frozen (time : Nat) : Clock := ⟨fun _ => time, fun _ _ _ => le_refl _⟩

end WhatsAppMcp.Controller.Redis
