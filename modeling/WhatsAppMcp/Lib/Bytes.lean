import Mathlib.Algebra.Ring.Nat
import Mathlib.Data.List.Basic
import Mathlib.Data.List.Infix
import Mathlib.Tactic.Common

/-!
# Slices of bytes

Reading a format from a list of bytes: slices that are out of range are a fault, numbers
are in little-endian order, and a pattern is looked for from the left.

* `slice_append`: a slice that is a part of a concatenation.
* `littleEndian_bytes`: a number comes back from its bytes.
* `indexOf_eq_some`: the first place of a pattern.
-/

namespace Bytes

variable {α : Type}

/-! ## Slices -/

/-- `data[lo:hi]`; out of range it is a fault. -/
def slice (data : List α) (lo hi : Nat) : Option (List α) :=
  if lo ≤ hi ∧ hi ≤ data.length then some ((data.take hi).drop lo) else none

theorem slice_of_le {data : List α} {lo hi : Nat} (hlo : lo ≤ hi) (hhi : hi ≤ data.length) :
    slice data lo hi = some ((data.take hi).drop lo) := if_pos ⟨hlo, hhi⟩

theorem slice_append (before part after : List α) {lo hi : Nat} (hlo : lo = before.length)
    (hhi : hi = before.length + part.length) : slice (before ++ (part ++ after)) lo hi = some part := by
  subst hlo hhi
  rw [slice_of_le (by omega) (by simp only [List.length_append]; omega), ← List.append_assoc,
    List.take_left' (by simp), List.drop_left]

/-! ## Numbers -/

/-- The number of bytes in little-endian order. -/
def littleEndian : List UInt8 → Nat
  | [] => 0
  | b :: bytes => b.toNat + 256 * littleEndian bytes

/-- So many bytes of a number in little-endian order. -/
def bytes : Nat → Nat → List UInt8
  | 0, _ => []
  | width + 1, n => UInt8.ofNat (n % 256) :: bytes width (n / 256)

@[simp] theorem length_bytes (width n : Nat) : (bytes width n).length = width := by
  induction width generalizing n with
  | zero => rfl
  | succ width ih => simp [bytes, ih]

/-- A number that fits comes back from its bytes. -/
theorem littleEndian_bytes {width n : Nat} (h : n < 256 ^ width) : littleEndian (bytes width n) = n := by
  induction width generalizing n with
  | zero =>
    have hn : n = 0 := by simpa using h
    simp [bytes, littleEndian, hn]
  | succ width ih =>
    have hrest : n / 256 < 256 ^ width := by
      rw [Nat.pow_succ] at h
      exact Nat.div_lt_of_lt_mul (by omega)
    have hbyte : (UInt8.ofNat (n % 256)).toNat = n % 256 := by simp
    rw [bytes, littleEndian, ih hrest, hbyte]
    omega

/-! ## Patterns -/

/-- `bytes.Index`. -/
def indexOf [BEq α] (pattern : List α) : List α → Option Nat
  | [] => if pattern.isEmpty then some 0 else none
  | c :: text => if pattern.isPrefixOf (c :: text) then some 0 else (indexOf pattern text).map (· + 1)

section IndexOf

variable [BEq α] [LawfulBEq α] {pattern text : List α}

/-- The pattern is at this place. -/
theorem indexOf_spec {k : Nat} (h : indexOf pattern text = some k) :
    ∃ before after, text = before ++ pattern ++ after ∧ before.length = k := by
  induction text generalizing k with
  | nil =>
    unfold indexOf at h
    split at h
    · next hempty =>
      cases h
      rw [List.isEmpty_iff] at hempty
      exact ⟨[], [], by simp [hempty], rfl⟩
    · cases h
  | cons c text ih =>
    unfold indexOf at h
    split at h
    · next hprefix =>
      cases h
      obtain ⟨after, hafter⟩ := List.isPrefixOf_iff_prefix.mp hprefix
      exact ⟨[], after, by simpa using hafter.symm, rfl⟩
    · obtain ⟨k', hk', rfl⟩ := Option.map_eq_some_iff.mp h
      obtain ⟨before, after, rfl, rfl⟩ := ih hk'
      exact ⟨c :: before, after, by simp, rfl⟩

/-- A place of the pattern is not before the one that is found. -/
theorem indexOf_le {before after : List α} (h : text = before ++ pattern ++ after) :
    ∃ k, indexOf pattern text = some k ∧ k ≤ before.length := by
  induction before generalizing text with
  | nil =>
    subst h
    have hprefix : pattern.isPrefixOf (pattern ++ after) = true :=
      List.isPrefixOf_iff_prefix.mpr (List.prefix_append pattern after)
    refine ⟨0, ?_, Nat.le_refl _⟩
    rw [List.nil_append]
    cases htext : pattern ++ after with
    | nil =>
      have hempty : pattern = [] := (List.append_eq_nil_iff.mp htext).1
      simp [indexOf, hempty]
    | cons c rest =>
      rw [htext] at hprefix
      simp [indexOf, hprefix]
  | cons c before ih =>
    subst h
    obtain ⟨k, hk, hle⟩ := ih rfl
    rw [List.cons_append, List.cons_append, indexOf]
    split
    · exact ⟨0, rfl, Nat.zero_le _⟩
    · exact ⟨k + 1, by rw [hk]; rfl, by simpa using hle⟩

end IndexOf

end Bytes
