import WhatsAppMcp.Controller.Redis.Keys

/-!
# The counters of the scripts

Cursors, epochs and revisions are counter fields: a missing one reads as `0`, and a
script bumps one with its helper `inc` and compares two with `less`.  A field that is
bumped `n` times reads as the decimal text of `n`, whatever `n` is.
-/

namespace WhatsAppMcp.Controller.Redis

open Decimal (Canonical value inc less)

/-- A counter field that was bumped so many times. -/
def bumped (times : Nat) : Option String := bump^[times] none

@[simp] theorem counter_bump (field : Option String) : counter (bump field) = inc (counter field) := rfl

@[simp] theorem counter_bumped (n : Nat) : counter (bumped n) = n.repr := by
  induction n with
  | zero => rfl
  | succ n ih =>
    show counter (bump^[n + 1] none) = _
    rw [Function.iterate_succ_apply', counter_bump]
    exact (congrArg inc ih).trans (Decimal.inc_repr n)

/-- On canonical texts of any length `inc` is the successor and `less` the order of the
numbers; and counter fields that are bumped stay canonical, grow with every bump, and
read alike only after the same number of bumps. -/
theorem counters_exact :
    (∀ s, Canonical s → Canonical (inc s) ∧ value (inc s) = value s + 1) ∧
    (∀ a b, Canonical a → Canonical b → (less a b = true ↔ value a < value b)) ∧
    (∀ field, Canonical (counter field) → Canonical (counter (bump field)) ∧
      less (counter field) (counter (bump field)) = true) ∧
    (∀ n, Canonical (counter (bumped n)) ∧ value (counter (bumped n)) = n) ∧
    (∀ m n, less (counter (bumped m)) (counter (bumped n)) = true ↔ m < n) ∧
    ∀ m n, counter (bumped m) = counter (bumped n) → m = n := by
  have hinc : ∀ s, Canonical s → Canonical (inc s) ∧ value (inc s) = value s + 1 := by
    intro s hs
    rw [← hs.repr_value, Decimal.inc_repr, Decimal.value_repr, Decimal.value_repr]
    exact ⟨Decimal.canonical_repr _, rfl⟩
  have hless : ∀ a b, Canonical a → Canonical b → (less a b = true ↔ value a < value b) := by
    intro a b ha hb
    have hrepr := Decimal.less_repr (value a) (value b)
    rwa [ha.repr_value, hb.repr_value] at hrepr
  refine ⟨hinc, hless, ?_, ?_, ?_, ?_⟩
  · intro field hfield
    obtain ⟨hcanonical, hvalue⟩ := hinc _ hfield
    refine ⟨hcanonical, (hless _ _ hfield hcanonical).mpr ?_⟩
    rw [hvalue]
    exact Nat.lt_succ_self _
  · intro n
    rw [counter_bumped]
    exact ⟨Decimal.canonical_repr n, Decimal.value_repr n⟩
  · intro m n
    rw [counter_bumped, counter_bumped]
    exact Decimal.less_repr m n
  · intro m n heq
    rw [counter_bumped, counter_bumped] at heq
    exact Decimal.repr_injective heq

/-- Past the integers that a double holds. -/
example : less "9007199254740992" (inc "9007199254740992") = true := by decide +kernel

end WhatsAppMcp.Controller.Redis
