import Mathlib.Data.List.Basic
import Mathlib.Data.List.Nodup
import Mathlib.Data.List.Sort
import Mathlib.Data.List.Range
import Mathlib.Tactic.Common

/-!
# Keyed tables

A table is a list of rows in which no two rows have the same primary key.  The
key is a function of the row, and the proof that it is unique is a field, so
every operation below returns a table again.

* `insert` appends a row and refuses one whose key is taken.
* `update` rewrites the selected rows and keeps their keys.
* `delete` drops the selected rows.
* `first` orders the selected rows by a rank and takes the first ones, as a
  query with `ORDER BY` and `LIMIT` does.  `Selects` is the same with rows of one
  rank in any order.

Every operation has a membership lemma and a lemma for `lookup`.
-/

universe u v w

/-- A list of rows with unique keys. -/
structure Table (ρ : Type u) (κ : Type v) (key : ρ → κ) where
  rows : List ρ
  unique : (rows.map key).Nodup

namespace Table

variable {ρ : Type u} {κ : Type v} {key : ρ → κ}

/-- The table without rows. -/
def empty : Table ρ κ key := ⟨[], List.nodup_nil⟩

instance : Membership ρ (Table ρ κ key) := ⟨fun t r => r ∈ t.rows⟩

theorem mem_def {t : Table ρ κ key} {r : ρ} : r ∈ t ↔ r ∈ t.rows := Iff.rfl

/-- Two rows with one key are one row. -/
theorem eq_of_key {t : Table ρ κ key} {r r' : ρ} (hr : r ∈ t) (hr' : r' ∈ t)
    (hkey : key r = key r') : r = r' :=
  List.inj_on_of_nodup_map t.unique hr hr' hkey

/-! ## Lookup by key -/

variable [DecidableEq κ]

/-- The row with a key. -/
def lookup (t : Table ρ κ key) (k : κ) : Option ρ :=
  t.rows.find? fun r => key r = k

theorem lookup_eq_some {t : Table ρ κ key} {k : κ} {r : ρ} :
    t.lookup k = some r ↔ r ∈ t ∧ key r = k := by
  constructor
  · intro h
    exact ⟨List.mem_of_find?_eq_some h, by simpa using List.find?_some h⟩
  · rintro ⟨hr, hkey⟩
    cases hfind : t.lookup k with
    | none => exact absurd hkey (by simpa using List.find?_eq_none.mp hfind r hr)
    | some r' =>
      have hr' : key r' = k := by simpa using List.find?_some hfind
      rw [eq_of_key hr (List.mem_of_find?_eq_some hfind) (hkey.trans hr'.symm)]

theorem lookup_eq_none {t : Table ρ κ key} {k : κ} :
    t.lookup k = none ↔ ∀ r ∈ t, key r ≠ k := by
  simp only [lookup, List.find?_eq_none, decide_eq_true_eq]
  rfl

theorem lookup_key {t : Table ρ κ key} {k : κ} {r : ρ} (h : t.lookup k = some r) : key r = k :=
  (lookup_eq_some.mp h).2

theorem mem_of_lookup {t : Table ρ κ key} {k : κ} {r : ρ} (h : t.lookup k = some r) : r ∈ t :=
  (lookup_eq_some.mp h).1

theorem lookup_of_mem {t : Table ρ κ key} {r : ρ} (h : r ∈ t) : t.lookup (key r) = some r :=
  lookup_eq_some.mpr ⟨h, rfl⟩

/-- The rows with a key. -/
theorem filter_key {t : Table ρ κ key} {k : κ} {r : ρ} (h : t.lookup k = some r) :
    t.rows.filter (fun r => key r = k) = [r] := by
  obtain ⟨hmem, hkey⟩ := lookup_eq_some.mp h
  have hnodup : (t.rows.filter fun r => key r = k).Nodup := (List.Nodup.of_map key t.unique).filter _
  refine List.perm_singleton.mp ((List.perm_ext_iff_of_nodup hnodup (List.nodup_singleton r)).mpr ?_)
  intro other
  simp only [List.mem_filter, decide_eq_true_eq, List.mem_singleton]
  constructor
  · exact fun hother => eq_of_key hother.1 hmem (hother.2.trans hkey.symm)
  · intro heq
    exact heq ▸ ⟨hmem, hkey⟩

/-! ## Insert -/

/-- `INSERT`: the row at the end, or nothing where its key is taken. -/
def insert (t : Table ρ κ key) (r : ρ) : Option (Table ρ κ key) :=
  if h : ∀ r' ∈ t.rows, key r' ≠ key r then
    some ⟨t.rows ++ [r], by
      rw [List.map_append, List.map_singleton, List.nodup_append]
      refine ⟨t.unique, List.nodup_singleton _, ?_⟩
      intro k hk k' hk' heq
      obtain ⟨r', hr', rfl⟩ := List.mem_map.mp hk
      exact h r' hr' (heq.trans (List.mem_singleton.mp hk'))⟩
  else none

theorem insert_eq_none {t : Table ρ κ key} {r : ρ} :
    t.insert r = none ↔ ∃ r', t.lookup (key r) = some r' := by
  unfold insert
  split
  · next h =>
    have hnone : t.lookup (key r) = none := lookup_eq_none.mpr h
    simp [hnone]
  · next h =>
    simp only [true_iff]
    push Not at h
    obtain ⟨r', hr', hkey⟩ := h
    exact ⟨r', lookup_eq_some.mpr ⟨hr', hkey⟩⟩

section Insert

variable {t t' : Table ρ κ key} {r r' : ρ} {k : κ}

theorem rows_insert (h : t.insert r = some t') : t'.rows = t.rows ++ [r] := by
  unfold insert at h
  split at h
  · rw [← Option.some.inj h]
  · cases h

theorem lookup_of_insert (h : t.insert r = some t') : t.lookup (key r) = none := by
  unfold insert at h
  split at h
  · next hfree => exact lookup_eq_none.mpr hfree
  · cases h

theorem mem_insert (h : t.insert r = some t') : r' ∈ t' ↔ r' ∈ t ∨ r' = r := by
  simp [mem_def, rows_insert h]

theorem lookup_insert (h : t.insert r = some t') :
    t'.lookup k = if k = key r then some r else t.lookup k := by
  split
  · next hk => exact lookup_eq_some.mpr ⟨(mem_insert h).mpr (.inr rfl), hk.symm⟩
  · next hk =>
    cases hold : t.lookup k with
    | none =>
      rw [lookup_eq_none] at hold ⊢
      intro x hx
      rcases (mem_insert h).mp hx with hx | rfl
      · exact hold x hx
      · exact fun heq => hk heq.symm
    | some x =>
      obtain ⟨hx, hkey⟩ := lookup_eq_some.mp hold
      exact lookup_eq_some.mpr ⟨(mem_insert h).mpr (.inl hx), hkey⟩

end Insert

/-! ## Update -/

/-- `UPDATE … WHERE`: the selected rows rewritten. -/
def update (t : Table ρ κ key) (sel : ρ → Bool) (f : ρ → ρ) (hf : ∀ r, key (f r) = key r) :
    Table ρ κ key :=
  ⟨t.rows.map fun r => if sel r then f r else r, by
    have hkeys : (t.rows.map fun r => if sel r then f r else r).map key = t.rows.map key := by
      rw [List.map_map]
      refine List.map_congr_left fun r _ => ?_
      show key (if sel r then f r else r) = key r
      split
      · exact hf r
      · rfl
    rw [hkeys]
    exact t.unique⟩

section Update

variable {t : Table ρ κ key} {sel : ρ → Bool} {f : ρ → ρ} {hf : ∀ r, key (f r) = key r}
variable {r : ρ} {k : κ}

omit [DecidableEq κ] in
theorem mem_update :
    r ∈ t.update sel f hf ↔ ∃ r₀ ∈ t, (if sel r₀ then f r₀ else r₀) = r :=
  List.mem_map

theorem lookup_update :
    (t.update sel f hf).lookup k = (t.lookup k).map fun r => if sel r then f r else r := by
  have hkey : ∀ x, key (if sel x then f x else x) = key x := by
    intro x
    split
    · exact hf x
    · rfl
  cases hold : t.lookup k with
  | none =>
    rw [lookup_eq_none] at hold
    refine lookup_eq_none.mpr fun x hx => ?_
    obtain ⟨x₀, hx₀, rfl⟩ := mem_update.mp hx
    rw [hkey]
    exact hold x₀ hx₀
  | some x =>
    obtain ⟨hx, hk⟩ := lookup_eq_some.mp hold
    exact lookup_eq_some.mpr ⟨mem_update.mpr ⟨x, hx, rfl⟩, (hkey x).trans hk⟩

/-- An update that selects one key rewrites the row with this key. -/
theorem lookup_update_key {k₀ : κ} (hsel : ∀ r, sel r = decide (key r = k₀)) :
    (t.update sel f hf).lookup k = if k = k₀ then (t.lookup k).map f else t.lookup k := by
  rw [lookup_update]
  cases hold : t.lookup k with
  | none => simp
  | some x =>
    have hk := lookup_key hold
    simp only [Option.map_some, hsel, hk]
    split <;> simp_all

end Update

/-! ## Delete -/

/-- `DELETE … WHERE`: the selected rows dropped. -/
def delete (t : Table ρ κ key) (sel : ρ → Bool) : Table ρ κ key :=
  ⟨t.rows.filter fun r => !sel r,
    t.unique.sublist (List.filter_sublist.map key)⟩

section Delete

variable {t : Table ρ κ key} {sel : ρ → Bool} {r : ρ} {k : κ}

omit [DecidableEq κ] in
theorem mem_delete : r ∈ t.delete sel ↔ r ∈ t ∧ sel r = false := by
  simp [delete, mem_def]

theorem lookup_delete :
    (t.delete sel).lookup k = (t.lookup k).filter fun r => !sel r := by
  cases hold : t.lookup k with
  | none =>
    rw [lookup_eq_none] at hold
    exact lookup_eq_none.mpr fun x hx => hold x (mem_delete.mp hx).1
  | some x =>
    obtain ⟨hx, hk⟩ := lookup_eq_some.mp hold
    cases hsel : sel x with
    | false =>
      rw [Option.filter_some_pos (by simp [hsel])]
      exact lookup_eq_some.mpr ⟨mem_delete.mpr ⟨hx, hsel⟩, hk⟩
    | true =>
      rw [Option.filter_some_neg (by simp [hsel])]
      refine lookup_eq_none.mpr fun y hy hky => ?_
      obtain ⟨hy, hkeep⟩ := mem_delete.mp hy
      rw [eq_of_key hy hx (hky.trans hk.symm), hsel] at hkeep
      cases hkeep

end Delete

/-! ## Ordered selection -/

/-- `SELECT … WHERE … ORDER BY … LIMIT`: the first `limit` selected rows by
rank. -/
def first {τ : Type w} [LinearOrder τ] (t : Table ρ κ key) (sel : ρ → Bool) (rank : ρ → τ)
    (limit : Nat) : List ρ :=
  ((t.rows.filter sel).insertionSort fun r r' => rank r ≤ rank r').take limit

omit [DecidableEq κ] in
theorem mem_of_first {τ : Type w} [LinearOrder τ] {t : Table ρ κ key} {sel : ρ → Bool}
    {rank : ρ → τ} {limit : Nat} {r : ρ} (h : r ∈ t.first sel rank limit) :
    r ∈ t ∧ sel r = true := by
  have hsorted := List.mem_of_mem_take h
  rw [List.mem_insertionSort] at hsorted
  exact List.mem_filter.mp hsorted

/-- `SELECT … WHERE … ORDER BY … LIMIT`, where rows of one rank come in any order. -/
def Selects {τ : Type w} [LinearOrder τ] (t : Table ρ κ key) (sel : ρ → Bool) (rank : ρ → τ)
    (limit : Nat) (out : List ρ) : Prop :=
  ∃ sorted : List ρ, sorted.Perm (t.rows.filter sel) ∧ sorted.Pairwise (fun r r' => rank r ≤ rank r') ∧
    out = sorted.take limit

omit [DecidableEq κ] in
theorem mem_of_selects {τ : Type w} [LinearOrder τ] {t : Table ρ κ key} {sel : ρ → Bool}
    {rank : ρ → τ} {limit : Nat} {out : List ρ} (h : t.Selects sel rank limit out) {r : ρ}
    (hr : r ∈ out) : r ∈ t ∧ sel r = true := by
  obtain ⟨sorted, hperm, -, rfl⟩ := h
  exact List.mem_filter.mp (hperm.subset (List.mem_of_mem_take hr))

end Table
