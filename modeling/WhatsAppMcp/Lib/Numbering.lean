import Mathlib.Data.List.Basic
import Mathlib.Data.List.Range
import Mathlib.Tactic.Common

/-!
# Numbered logs

A log whose entries may belong to a class and carry a number.  It is numbered by
a counter when the entries of every class carry `1`, `2`, … up to the counter of
the class, in the order of the log.

`Numbered.append` is the one step: an entry takes the next number of its class,
and the counter of the class is raised by one.
-/

namespace Numbering

universe u v

variable {α : Type u} {κ : Type v} [DecidableEq κ]
variable {cls : α → Option κ} {num : α → Option Nat} {counter counter' : κ → Nat} {l : List α}

/-- The entries of every class carry the numbers up to its counter, in order. -/
def Numbered (cls : α → Option κ) (num : α → Option Nat) (counter : κ → Nat) (l : List α) : Prop :=
  ∀ k, (l.filter fun a => cls a = some k).map num = (List.range' 1 (counter k)).map some

theorem Numbered.nil (hzero : ∀ k, counter k = 0) : Numbered cls num counter [] := by
  intro k
  rw [hzero k]
  rfl

theorem Numbered.congr (h : Numbered cls num counter l) (heq : ∀ k, counter' k = counter k) :
    Numbered cls num counter' l := by
  intro k
  rw [heq k]
  exact h k

/-- The next entry of a class takes the next number. -/
theorem Numbered.append {a : α} {k : κ} (h : Numbered cls num counter l) (hcls : cls a = some k)
    (hnum : num a = some (counter k + 1))
    (hcounter : ∀ j, counter' j = if j = k then counter k + 1 else counter j) :
    Numbered cls num counter' (l ++ [a]) := by
  intro j
  rw [List.filter_append, List.map_append, h j, hcounter j]
  by_cases hj : j = k
  · have hone : [a].filter (fun b => cls b = some j) = [a] := by simp [hcls, hj]
    rw [hone, if_pos hj, hj, List.range'_concat, List.map_append, List.map_singleton,
      List.map_singleton, hnum]
    congr 2
    simp only [Option.some.injEq]
    omega
  · have hne : ¬ k = j := fun heq => hj heq.symm
    have hnone : [a].filter (fun b => cls b = some j) = [] := by simp [hcls, hne]
    rw [hnone, if_neg hj, List.map_nil, List.append_nil]

end Numbering
