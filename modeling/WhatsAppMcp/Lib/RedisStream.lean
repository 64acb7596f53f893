import Mathlib.Data.List.AList
import Mathlib.Data.Prod.Lex
import Mathlib.Tactic.Common

/-!
# A Redis stream with one consumer group

The commands of a Redis 7.2 stream on a pure value: the entries in the order
they were added, the last id ever given, and one consumer group with its
pending-entry list (PEL).  An entry holds one value.  Delivery counts and idle
times are left out; no command here reads them.

`Wf` is what the commands keep of the entries: no id is used twice, and none
is past `lastId`.  `xadd_wf` and `xdel_wf` show that the two commands that
change the entries keep it; the others leave the entries as they are.
-/

namespace RedisStream

/-! ## Ids -/

/-- A stream id, `<ms>-<seq>`. -/
structure Id where
  ms : Nat
  seq : Nat
  deriving DecidableEq, Repr

/-- The pair behind an id, in the lexicographic order. -/
def Id.pair (id : Id) : ℕ ×ₗ ℕ := toLex (id.ms, id.seq)

theorem Id.pair_injective : Function.Injective Id.pair := by
  rintro ⟨ms, seq⟩ ⟨ms', seq'⟩ h
  simpa [Id.pair] using h

instance : LinearOrder Id := LinearOrder.lift' Id.pair Id.pair_injective

/-- The id `0-0`, before every id that an entry has. -/
def Id.zero : Id := ⟨0, 0⟩

/-- The id that `XADD *` gives at server time `now`: the time with sequence
`0`, or the successor of the last id when the time is not past it. -/
def nextId (last : Id) (now : Nat) : Id :=
  if last.ms < now then ⟨now, 0⟩ else ⟨last.ms, last.seq + 1⟩

theorem lt_nextId (last : Id) (now : Nat) : last < nextId last now := by
  change last.pair < (nextId last now).pair
  rw [Id.pair, Id.pair, Prod.Lex.toLex_lt_toLex, nextId]
  split
  · exact Or.inl ‹_›
  · exact Or.inr ⟨rfl, Nat.lt_succ_self _⟩

/-! ## Streams -/

/-- The pending entries of a group, with the consumer that holds each. -/
abbrev Pel := AList fun _ : Id => String

/-- A consumer group. -/
structure Group where
  pel : Pel
  lastDelivered : Id

variable {V : Type}

/-- A stream.  `group` is absent until `XGROUP CREATE`. -/
structure Stream (V : Type) where
  entries : List (Id × V)
  lastId : Id
  group : Option Group

/-- The stream of a key that does not exist. -/
def Stream.empty : Stream V := ⟨[], .zero, none⟩

/-- Whether an entry with this id is there. -/
def Stream.contains (s : Stream V) (id : Id) : Bool := (s.entries.map Prod.fst).contains id

/-! ## Commands -/

/-- `XADD key * v` at server time `now`. -/
def Stream.xadd (s : Stream V) (now : Nat) (v : V) : Id × Stream V :=
  let id := nextId s.lastId now
  (id, { s with entries := s.entries ++ [(id, v)], lastId := id })

/-- `XDEL key id`. -/
def Stream.xdel (s : Stream V) (id : Id) : Stream V :=
  { s with entries := s.entries.filter (fun entry => entry.1 ≠ id) }

/-- `XRANGE key id id`. -/
def Stream.xrange (s : Stream V) (id : Id) : List (Id × V) :=
  s.entries.filter (fun entry => entry.1 = id)

/-- `XGROUP CREATE key group 0 MKSTREAM`.  An existing group stays (`BUSYGROUP`). -/
def Stream.xgroupCreate (s : Stream V) : Stream V :=
  { s with group := some (s.group.getD ⟨∅, .zero⟩) }

/-- `XACK key group id`. -/
def Stream.xack (s : Stream V) (id : Id) : Stream V :=
  { s with group := s.group.map fun g => { g with pel := g.pel.erase id } }

/-- `XPENDING key group id id`: the holder of one pending entry.  The command
fails without a group. -/
def Stream.xpending (s : Stream V) (id : Id) : Option (Option String) :=
  s.group.map fun g => g.pel.lookup id

/-- `XCLAIM key group consumer 0 id FORCE JUSTID`.  The entry becomes pending
for `consumer` if it is in the stream; an id that is not is dropped from the
PEL and not claimed.  The command fails without a group. -/
def Stream.xclaim (s : Stream V) (consumer : String) (id : Id) : Option (Bool × Stream V) :=
  s.group.map fun g =>
    if s.contains id then
      (true, { s with group := some { g with pel := g.pel.insert id consumer } })
    else (false, { s with group := some { g with pel := g.pel.erase id } })

/-- The reply of `XAUTOCLAIM`. -/
structure AutoClaim where
  next : Id
  claimed : List Id
  deleted : List Id

/-- `XAUTOCLAIM key group consumer 0 start COUNT count JUSTID`.  It walks the
PEL in id order from `start` for at most `count` entries, claims those that are
in the stream and drops the others. -/
def Stream.xautoclaim (s : Stream V) (consumer : String) (start : Id) (count : Nat) :
    Option (AutoClaim × Stream V) :=
  s.group.map fun g =>
    let scan := (g.pel.keys.filter (fun id => start ≤ id)).mergeSort (fun a b => a ≤ b)
    let batch := scan.take count
    let claimed := batch.filter s.contains
    let deleted := batch.filter (fun id => !s.contains id)
    let kept := deleted.foldl (fun pel id => pel.erase id) g.pel
    let pel := claimed.foldl (fun pel id => pel.insert id consumer) kept
    (⟨(scan.drop count).head?.getD .zero, claimed, deleted⟩,
      { s with group := some { g with pel } })

/-- `XREADGROUP GROUP group consumer COUNT 1 STREAMS key >`: the first entry
past the last delivered one becomes pending for `consumer`. -/
def Stream.xreadgroup (s : Stream V) (consumer : String) : Stream V :=
  match s.group with
  | none => s
  | some g =>
    match s.entries.find? (fun entry => g.lastDelivered < entry.1) with
    | none => s
    | some (id, _) => { s with group := some ⟨g.pel.insert id consumer, id⟩ }

/-! ## What the commands keep -/

/-- No id is used twice, and none is past `lastId`. -/
structure Wf (s : Stream V) : Prop where
  nodup : (s.entries.map Prod.fst).Nodup
  le_last : ∀ entry ∈ s.entries, entry.1 ≤ s.lastId

theorem Wf.fresh {s : Stream V} (h : Wf s) (now : Nat) :
    ∀ entry ∈ s.entries, entry.1 ≠ nextId s.lastId now :=
  fun entry hmem heq =>
    absurd (h.le_last entry hmem) (not_le.mpr (heq ▸ lt_nextId s.lastId now))

theorem xadd_wf {s : Stream V} (h : Wf s) (now : Nat) (v : V) : Wf (s.xadd now v).2 := by
  have hlt := lt_nextId s.lastId now
  constructor
  · simp only [Stream.xadd, List.map_append, List.map_cons, List.map_nil]
    refine List.Nodup.append h.nodup (List.nodup_singleton _) ?_
    rw [List.disjoint_singleton]
    intro hmem
    obtain ⟨entry, hentry, heq⟩ := List.mem_map.mp hmem
    exact h.fresh now entry hentry heq
  · intro entry hmem
    simp only [Stream.xadd, List.mem_append, List.mem_singleton] at hmem
    rcases hmem with hmem | rfl
    · exact le_of_lt (lt_of_le_of_lt (h.le_last entry hmem) hlt)
    · exact le_refl _

theorem xdel_wf {s : Stream V} (h : Wf s) (id : Id) : Wf (s.xdel id) :=
  ⟨h.nodup.sublist (List.Sublist.map _ List.filter_sublist),
    fun entry hmem => h.le_last entry (List.mem_of_mem_filter hmem)⟩

theorem xclaim_frame {s t : Stream V} {consumer : String} {id : Id} {ok : Bool}
    (h : s.xclaim consumer id = some (ok, t)) :
    t.entries = s.entries ∧ t.lastId = s.lastId ∧ ok = s.contains id := by
  obtain ⟨g, -, hg⟩ := Option.map_eq_some_iff.mp h
  split at hg
  · obtain ⟨rfl, rfl⟩ := Prod.mk.inj hg
    exact ⟨rfl, rfl, by simp [*]⟩
  · obtain ⟨rfl, rfl⟩ := Prod.mk.inj hg
    exact ⟨rfl, rfl, by simp [*]⟩

theorem xautoclaim_frame {s t : Stream V} {consumer : String} {start : Id} {count : Nat}
    {r : AutoClaim} (h : s.xautoclaim consumer start count = some (r, t)) :
    t.entries = s.entries ∧ t.lastId = s.lastId := by
  obtain ⟨g, -, hg⟩ := Option.map_eq_some_iff.mp h
  obtain ⟨-, rfl⟩ := Prod.mk.inj hg
  exact ⟨rfl, rfl⟩

theorem xreadgroup_frame (s : Stream V) (consumer : String) :
    (s.xreadgroup consumer).entries = s.entries ∧ (s.xreadgroup consumer).lastId = s.lastId := by
  unfold Stream.xreadgroup
  split
  · exact ⟨rfl, rfl⟩
  · split <;> exact ⟨rfl, rfl⟩

end RedisStream
