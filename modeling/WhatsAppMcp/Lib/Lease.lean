import Mathlib.Tactic.Common

/-!
# Leases with fencing epochs

A lease has at most one holder, a deadline, and an epoch that a grant moves up
and nothing moves down.  A holder proves its authority by naming itself and
its epoch before the deadline.  `Move` lists what a lease service may do at
times from `now` on: it grants a fresh epoch, extends a lease that is alive, or
drops the holder while the epoch stays.

`Move.lapsed` is the fencing property: an authority that has failed once, with
an epoch the service has reached, fails after every move.
-/

universe u

/-- The state of a lease with holders in `α`. -/
structure Lease (α : Type u) where
  holder : Option α
  epoch : Nat
  deadline : Nat

namespace Lease

variable {α : Type u}

/-- `a` holds the lease under `epoch` at time `now`. -/
def Alive (l : Lease α) (a : α) (epoch now : Nat) : Prop :=
  l.holder = some a ∧ l.epoch = epoch ∧ now < l.deadline

/-- What the service may do to a lease at times from `now` on. -/
inductive Move (now : Nat) (l : Lease α) : Lease α → Prop
  | keep : Move now l l
  | grant (a : α) (deadline : Nat) : Move now l ⟨some a, l.epoch + 1, deadline⟩
  | renew {a : α} (halive : l.Alive a l.epoch now) (deadline : Nat) :
      Move now l { l with deadline := deadline }
  | drop (deadline : Nat) : Move now l ⟨none, l.epoch, deadline⟩

variable {l l' : Lease α} {a b : α} {epoch now later : Nat}

theorem Alive.earlier (h : l.Alive a epoch later) (hle : now ≤ later) : l.Alive a epoch now :=
  ⟨h.1, h.2.1, Nat.lt_of_le_of_lt hle h.2.2⟩

theorem Move.epoch_le (h : Move now l l') : l.epoch ≤ l'.epoch := by
  cases h with
  | grant => exact Nat.le_succ _
  | keep | renew | drop => exact Nat.le_refl _

/-- An authority that has failed fails after every move. -/
theorem Move.lapsed (h : Move now l l') (hreached : epoch ≤ l.epoch)
    (hlapsed : ¬ l.Alive a epoch now) (hle : now ≤ later) : ¬ l'.Alive a epoch later := by
  intro halive
  cases h with
  | keep => exact hlapsed (halive.earlier hle)
  | grant b deadline =>
    obtain ⟨-, hepoch, -⟩ := halive
    simp only at hepoch
    omega
  | renew hown deadline =>
    obtain ⟨hholder, hepoch, -⟩ := halive
    exact hlapsed ⟨hholder, hepoch, hown.2.2⟩
  | drop deadline => exact absurd halive.1 (by simp)

end Lease
