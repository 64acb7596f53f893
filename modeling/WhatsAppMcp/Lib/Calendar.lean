import Mathlib.Algebra.Ring.Nat
import Mathlib.Data.List.Basic
import Mathlib.Data.String.Basic
import Mathlib.Tactic.Common

/-!
# The civil calendar

Dates of the Gregorian calendar, extended to all years, and decimal fields of a
fixed width, as a formatter of dates writes them.

`ofDays` counts from the first day of the year 1.  It takes off whole cycles of
400 years, whole centuries, whole cycles of 4 years and whole years; the last
century of a cycle and the last year of four are the long ones.

* `yearOfDays_sum`: the days before the year and the day of the year make up the count.
* `ofDays_valid`: the month and the day that it gives exist.
* `padded_isDigit` and `ofDigitChars_padded`: a padded number is made of digits,
  and they stand for it.
-/

namespace Calendar

/-! ## Years and months -/

/-- A leap year. -/
def isLeap (year : Int) : Bool := year % 4 = 0 && (year % 100 ≠ 0 || year % 400 = 0)

/-- The lengths of the months. -/
def monthLengths (leap : Bool) : List Nat :=
  [31, if leap then 29 else 28, 31, 30, 31, 30, 31, 31, 30, 31, 30, 31]

/-- Which of the consecutive spans a position is in, and where in it. -/
def locate : List Nat → Nat → Nat × Nat
  | [], k => (0, k)
  | len :: rest, k =>
    if k < len then (0, k)
    else
      let (i, k') := locate rest (k - len)
      (i + 1, k')

/-- A position within the spans is within the one that it is located in. -/
theorem locate_lt {lens : List Nat} {k : Nat} (h : k < lens.sum) :
    (locate lens k).2 < lens.getD (locate lens k).1 0 := by
  induction lens generalizing k with
  | nil => simp at h
  | cons len rest ih =>
    unfold locate
    split
    · assumption
    · exact ih (by rw [List.sum_cons] at h; omega)

/-! ## Dates -/

/-- A date; the first month and the first day have the number `1`. -/
structure Date where
  year : Int
  month : Nat
  day : Nat
  deriving DecidableEq, Repr

/-- The month and the day exist. -/
def Date.Valid (d : Date) : Prop :=
  1 ≤ d.month ∧ d.month ≤ 12 ∧ 1 ≤ d.day ∧ d.day ≤ (monthLengths (isLeap d.year)).getD (d.month - 1) 0

/-- The year of a day and the days of the year before it. -/
def yearOfDays (days : Int) : Int × Nat :=
  let cycle := (days % 146097).toNat
  let century := min (cycle / 36524) 3
  let fours := (cycle - 36524 * century) / 1461
  let four := (cycle - 36524 * century) % 1461
  let single := min (four / 365) 3
  (400 * (days / 146097) + (100 * century + 4 * fours + single : Nat) + 1, four - 365 * single)

/-- The date so many days after the first day of the year 1. -/
def ofDays (days : Int) : Date :=
  let (year, yearDay) := yearOfDays days
  let (month, day) := locate (monthLengths (isLeap year)) yearDay
  ⟨year, month + 1, day + 1⟩

/-- The days from the first day of the year 1 to the first day of a year. -/
def daysBeforeYear (year : Int) : Int :=
  365 * (year - 1) + (year - 1) / 4 - (year - 1) / 100 + (year - 1) / 400

theorem sum_monthLengths (leap : Bool) :
    (monthLengths leap).sum = if leap then 366 else 365 := by
  cases leap <;> rfl

theorem isLeap_iff (year : Int) :
    isLeap year = true ↔ year % 4 = 0 ∧ (year % 100 ≠ 0 ∨ year % 400 = 0) := by
  simp [isLeap]

/-- The parts that a number of days is taken to: cycles, centuries, fours and
single years, and the days that are left. -/
theorem yearOfDays_parts (days : Int) : ∃ (cycles : Int) (century fours single : Nat),
    (yearOfDays days).1 - 1 = 400 * cycles + 100 * century + 4 * fours + single ∧
    days = 146097 * cycles + 36524 * century + 1461 * fours + 365 * single + (yearOfDays days).2 ∧
    century ≤ 3 ∧ fours ≤ 24 ∧ single ≤ 3 ∧
    ((yearOfDays days).2 < 365 ∨
      (yearOfDays days).2 = 365 ∧ single = 3 ∧ (fours < 24 ∨ century = 3)) := by
  have hcycle : (days % 146097).toNat < 146097 := by omega
  have hdays : days = 146097 * (days / 146097) + (days % 146097).toNat := by omega
  unfold yearOfDays
  simp only
  generalize (days % 146097).toNat = cycle at hcycle hdays ⊢
  refine ⟨days / 146097, min (cycle / 36524) 3, (cycle - 36524 * min (cycle / 36524) 3) / 1461,
    min ((cycle - 36524 * min (cycle / 36524) 3) % 1461 / 365) 3, ?_, ?_, ?_, ?_, ?_, ?_⟩
  all_goals omega

/-- A day of a year is within the length of the year. -/
theorem yearOfDays_lt (days : Int) :
    (yearOfDays days).2 < (monthLengths (isLeap (yearOfDays days).1)).sum := by
  rw [sum_monthLengths]
  obtain ⟨cycles, century, fours, single, hyear, -, hcentury, hfours, hsingle, hlast⟩ :=
    yearOfDays_parts days
  split
  · omega
  · next hnot =>
    rw [isLeap_iff] at hnot
    omega

/-- The day is that of the year. -/
theorem yearOfDays_sum (days : Int) :
    daysBeforeYear (yearOfDays days).1 + (yearOfDays days).2 = days := by
  obtain ⟨cycles, century, fours, single, hyear, hdays, hcentury, hfours, hsingle, -⟩ :=
    yearOfDays_parts days
  have hquarter : ((yearOfDays days).1 - 1) / 4 = 100 * cycles + 25 * century + fours := by omega
  have hcenturies : ((yearOfDays days).1 - 1) / 100 = 4 * cycles + century := by omega
  have hcycles : ((yearOfDays days).1 - 1) / 400 = cycles := by omega
  rw [daysBeforeYear, hquarter, hcenturies, hcycles, hyear]
  omega

/-- A position within the spans is in one of them. -/
theorem locate_fst_lt {lens : List Nat} {k : Nat} (h : k < lens.sum) :
    (locate lens k).1 < lens.length := by
  induction lens generalizing k with
  | nil => simp at h
  | cons len rest ih =>
    unfold locate
    split
    · simp
    · have hrest := ih (k := k - len) (by rw [List.sum_cons] at h; omega)
      simp only [List.length_cons]
      omega

@[simp] theorem length_monthLengths (leap : Bool) : (monthLengths leap).length = 12 := rfl

theorem ofDays_valid (days : Int) : (ofDays days).Valid := by
  have hmonth := locate_fst_lt (yearOfDays_lt days)
  have hday := locate_lt (yearOfDays_lt days)
  rw [length_monthLengths] at hmonth
  simp only [Date.Valid, ofDays, Nat.add_sub_cancel]
  omega

/-! ## Decimal fields -/

/-- The last digits of a number, so many of them. -/
def padded : Nat → Nat → List Char
  | 0, _ => []
  | width + 1, n => padded width (n / 10) ++ [(n % 10).digitChar]

@[simp] theorem length_padded (width n : Nat) : (padded width n).length = width := by
  induction width generalizing n with
  | zero => rfl
  | succ width ih => simp [padded, ih]

theorem padded_isDigit {width n : Nat} {c : Char} (h : c ∈ padded width n) : c.isDigit = true := by
  induction width generalizing n with
  | zero => simp [padded] at h
  | succ width ih =>
    rw [padded, List.mem_append, List.mem_singleton] at h
    cases h with
    | inl h => exact ih h
    | inr h =>
      rw [h, Nat.isDigit_digitChar]
      exact decide_eq_true (Nat.mod_lt n (by decide))

theorem ofDigitChars_padded {width n : Nat} (h : n < 10 ^ width) :
    Nat.ofDigitChars 10 (padded width n) 0 = n := by
  induction width generalizing n with
  | zero =>
    have hn : n = 0 := by simpa using h
    simp [padded, hn]
  | succ width ih =>
    have hdigit : (n % 10).digitChar.toNat = 48 + n % 10 :=
      Nat.toNat_digitChar_of_lt_ten (Nat.mod_lt n (by decide))
    have hrest : n / 10 < 10 ^ width := by
      rw [Nat.pow_succ] at h
      exact Nat.div_lt_of_lt_mul (by omega)
    rw [padded, Nat.ofDigitChars_append, ih hrest, Nat.ofDigitChars_cons, Nat.ofDigitChars_nil,
      hdigit]
    show 10 * (n / 10) + (48 + n % 10 - 48) = n
    omega

end Calendar
