import Mathlib.Data.List.Basic
import Mathlib.Data.List.Chain
import Mathlib.Tactic.Common

/-!
# Successions in one register

A register holds one value at a time, and every value belongs to an item, named
by its key.  A write either moves the item that the register holds, along `next`,
or opens a new item once the one before has ended.  `History` lists the values
of the register from the first to the current one.

The rules read the law of one item off the history of all of them.

* `History.chain`: the values of one item follow one another along `next`.
* `History.first`: the first value of an item is a start.
* `History.ended`: an item has ended, or is the one in the register.
* `History.one_open`: so at most one item is open.
* `History.boundary`: between two items lies an end.
-/

namespace Succession

universe u v

variable {ρ : Type u} {ι : Type v}

/-- The values that a register has held, the current one at the end. -/
inductive History (key : ρ → ι) (next : ρ → ρ → Prop) (starts ends : ρ → Prop) : List ρ → Prop
  | nil : History key next starts ends []
  | opened {h : List ρ} {t : ρ} (past : History key next starts ends h)
      (last : ∀ p ∈ h.getLast?, ends p) (fresh : ∀ p ∈ h, key p ≠ key t) (start : starts t) :
      History key next starts ends (h ++ [t])
  | moved {h : List ρ} {p t : ρ} (past : History key next starts ends (h ++ [p]))
      (move : next p t) : History key next starts ends (h ++ [p] ++ [t])

variable {key : ρ → ι} {next : ρ → ρ → Prop} {starts ends : ρ → Prop} {h : List ρ}

/-- The values of one item. -/
def item [DecidableEq ι] (key : ρ → ι) (h : List ρ) (k : ι) : List ρ :=
  h.filter fun r => key r = k

section Items

variable [DecidableEq ι] {k : ι} {r : ρ}

theorem mem_item : r ∈ item key h k ↔ r ∈ h ∧ key r = k := by
  simp [item]

@[simp] theorem item_nil : item key [] k = [] := rfl

theorem item_snoc : item key (h ++ [r]) k = item key h k ++ if key r = k then [r] else [] := by
  unfold item
  rw [List.filter_append, List.filter_singleton]
  congr 1
  simp

theorem item_snoc_self : item key (h ++ [r]) (key r) = item key h (key r) ++ [r] := by
  rw [item_snoc, if_pos rfl]

theorem item_snoc_ne (hk : key r ≠ k) : item key (h ++ [r]) k = item key h k := by
  rw [item_snoc, if_neg hk, List.append_nil]

theorem item_fresh (hfresh : ∀ p ∈ h, key p ≠ k) : item key h k = [] :=
  List.filter_eq_nil_iff.mpr fun p hp => by simpa using hfresh p hp

/-- The values of an item follow one another. -/
theorem History.chain (hkey : ∀ p t, next p t → key t = key p)
    (past : History key next starts ends h) (k : ι) : (item key h k).IsChain next := by
  induction past with
  | nil => exact .nil
  | @opened h t _ _ fresh _ ih =>
    by_cases hk : key t = k
    · subst hk
      rw [item_snoc_self, item_fresh fresh]
      exact .singleton _
    · rwa [item_snoc_ne hk]
  | @moved h p t _ move ih =>
    by_cases hk : key t = k
    · subst hk
      have hp : key p = key t := (hkey p t move).symm
      rw [← hp] at ih ⊢
      rw [item_snoc_self] at ih
      rw [hp, item_snoc_self, ← hp, item_snoc_self]
      refine ih.append (.singleton _) fun x hx y hy => ?_
      simp only [List.getLast?_concat, Option.mem_def, Option.some.injEq] at hx
      simp only [List.head?_cons, Option.mem_def, Option.some.injEq] at hy
      rw [← hx, ← hy]
      exact move
    · rwa [item_snoc_ne hk]

/-- The first value of an item is a start. -/
theorem History.first (hkey : ∀ p t, next p t → key t = key p)
    (past : History key next starts ends h) (k : ι) :
    ∀ p ∈ (item key h k).head?, starts p := by
  induction past with
  | nil => simp
  | @opened h t _ _ fresh start ih =>
    by_cases hk : key t = k
    · subst hk
      rw [item_snoc_self, item_fresh fresh]
      intro p hp
      cases hp
      exact start
    · rwa [item_snoc_ne hk]
  | @moved h p t _ move ih =>
    by_cases hk : key t = k
    · subst hk
      have hp : key p = key t := (hkey p t move).symm
      rw [item_snoc_self, ← hp]
      rw [← hp, item_snoc_self] at ih
      rw [item_snoc_self]
      intro q hq
      apply ih
      rwa [List.head?_append_of_ne_nil _ (by simp)] at hq
    · rwa [item_snoc_ne hk]

/-- An item has ended, or the register holds its last value. -/
theorem History.ended (hkey : ∀ p t, next p t → key t = key p)
    (past : History key next starts ends h) (k : ι) :
    ∀ p ∈ (item key h k).getLast?, ends p ∨ h.getLast? = some p := by
  induction past with
  | nil => simp
  | @opened h t _ last _ _ ih =>
    intro p hp
    by_cases hk : key t = k
    · subst hk
      rw [item_snoc_self, List.getLast?_concat] at hp
      cases hp
      exact .inr List.getLast?_concat
    · rw [item_snoc_ne hk] at hp
      rcases ih p hp with hend | hlast
      · exact .inl hend
      · exact .inl (last p hlast)
  | @moved h q t _ move ih =>
    intro p hp
    by_cases hk : key t = k
    · subst hk
      rw [item_snoc_self, List.getLast?_concat] at hp
      cases hp
      exact .inr List.getLast?_concat
    · rw [item_snoc_ne hk] at hp
      rcases ih p hp with hend | hlast
      · exact .inl hend
      · -- The register held another item before the move.
        rw [List.getLast?_concat] at hlast
        cases hlast
        have hmem := mem_item.mp (List.mem_of_getLast? hp)
        exact absurd ((hkey _ _ move).trans hmem.2) hk

/-- At most one item is open. -/
theorem History.one_open (hkey : ∀ p t, next p t → key t = key p)
    (past : History key next starts ends h) {k k' : ι} {p p' : ρ}
    (hp : p ∈ (item key h k).getLast?) (hp' : p' ∈ (item key h k').getLast?) (hopen : ¬ ends p)
    (hopen' : ¬ ends p') : k = k' := by
  have hlast := (past.ended hkey k p hp).resolve_left hopen
  have hlast' := (past.ended hkey k' p' hp').resolve_left hopen'
  rw [hlast] at hlast'
  cases hlast'
  rw [← (mem_item.mp (List.mem_of_getLast? hp)).2, ← (mem_item.mp (List.mem_of_getLast? hp')).2]

end Items

/-- Where one item follows another, the first has ended and the second starts. -/
theorem History.boundary (hkey : ∀ p t, next p t → key t = key p)
    (past : History key next starts ends h) {before after : List ρ} {p t : ρ}
    (hh : h = before ++ p :: t :: after) (hne : key t ≠ key p) : ends p ∧ starts t := by
  induction past generalizing after with
  | nil => simp at hh
  | @opened h u past last fresh start ih =>
    rcases after.eq_nil_or_concat with rfl | ⟨after, last', rfl⟩
    · have hsplit : h ++ [u] = (before ++ [p]) ++ [t] := by simpa using hh
      obtain ⟨rfl, hu⟩ := List.append_inj' hsplit rfl
      cases hu
      exact ⟨last p (by simp), start⟩
    · have hsplit : h ++ [u] = (before ++ p :: t :: after) ++ [last'] := by simpa using hh
      exact ih (List.append_inj' hsplit rfl).1
  | @moved h q u past move ih =>
    rcases after.eq_nil_or_concat with rfl | ⟨after, last', rfl⟩
    · have hsplit : h ++ [q] ++ [u] = (before ++ [p]) ++ [t] := by simpa using hh
      obtain ⟨hfirst, hu⟩ := List.append_inj' hsplit rfl
      obtain ⟨-, hq⟩ := List.append_inj' hfirst rfl
      cases hu
      cases hq
      exact absurd (hkey _ _ move) hne
    · have hsplit : h ++ [q] ++ [u] = (before ++ p :: t :: after) ++ [last'] := by simpa using hh
      exact ih (List.append_inj' hsplit rfl).1

end Succession
