import Mathlib.Data.List.Induction
import Mathlib.Data.String.Basic
import Mathlib.Tactic.Common

/-!
# Counters as decimal text

A counter that may pass the range of a machine number is often kept as its
decimal text, and two operations are then written by hand on that text: the
successor, with a carry that runs from the last digit to the first, and the
comparison, which looks at the lengths first and at the text second.

This module gives the two operations, `inc` and `less`, and relates them to
the numbers behind the text:

* `inc_repr`: on the text of `n` the carry loop gives the text of `n + 1`;
* `less_repr`: the length-first comparison of two texts is the comparison of
  the two numbers;
* `repr_injective`: two counters that print alike are equal;
* `Canonical.repr_value`: the texts that numbers print are the digit texts without
  leading zeros.
-/

namespace Decimal

/-! ## The carry loop -/

/-- One step of the carry loop.  `carry` is what the digits to the right pass
on, `out` is the text already written.  The sum of the digit's code and the
carry is the code of the new digit, unless it is `58`, one past `'9'`. -/
def incStep (c : Char) : Nat × List Char → Nat × List Char
  | (carry, out) =>
    if c.toNat + carry = 58 then (1, '0' :: out)
    else (0, Char.ofNat (c.toNat + carry) :: out)

/-- The carry loop over a whole text, with its first carry `1`. -/
def incDigits (cs : List Char) : Nat × List Char := cs.foldr incStep (1, [])

/-- The successor of a counter. -/
def inc (s : String) : String :=
  match incDigits s.toList with
  | (0, out) => String.ofList out
  | (_, out) => String.ofList ('1' :: out)

/-- Length first, text second. -/
def less (a b : String) : Bool :=
  a.length < b.length || (a.length = b.length && a < b)

/-! ## The loop on printed numbers -/

/-- A digit below nine takes the carry and passes none on. -/
theorem incStep_digit {d : Nat} (hd : d < 9) (out : List Char) :
    incStep d.digitChar (1, out) = (0, (d + 1).digitChar :: out) := by
  have h48 : d.digitChar.toNat = 48 + d := Nat.toNat_digitChar_of_lt_ten (by omega)
  have h49 : (d + 1).digitChar.toNat = 48 + (d + 1) := Nat.toNat_digitChar_of_lt_ten (by omega)
  have hsum : d.digitChar.toNat + 1 = (d + 1).digitChar.toNat := by omega
  rw [incStep, if_neg (by omega), hsum, Char.ofNat_toNat]

/-- A nine turns to zero and passes the carry on. -/
theorem incStep_nine (out : List Char) :
    incStep (9 : Nat).digitChar (1, out) = (1, '0' :: out) := rfl

/-- Without a carry a digit stays. -/
theorem incStep_noCarry {d : Nat} (hd : d < 10) (out : List Char) :
    incStep d.digitChar (0, out) = (0, d.digitChar :: out) := by
  have h48 : d.digitChar.toNat = 48 + d := Nat.toNat_digitChar_of_lt_ten hd
  rw [incStep, if_neg (by omega), Nat.add_zero, Char.ofNat_toNat]

/-- Once the carry is gone the digits to the left are copied. -/
theorem foldr_incStep_noCarry (n : Nat) (out : List Char) :
    (Nat.toDigits 10 n).foldr incStep (0, out) = (0, Nat.toDigits 10 n ++ out) := by
  induction n using Nat.strongRecOn generalizing out with
  | ind n ih =>
    by_cases hn : n < 10
    · rw [Nat.toDigits_of_lt_base hn]
      simpa using incStep_noCarry hn out
    · have hmod : n % 10 < 10 := Nat.mod_lt n (by decide)
      rw [Nat.toDigits_of_base_le (by decide) (by omega), List.foldr_append, List.foldr_cons,
        List.foldr_nil, incStep_noCarry hmod, ih (n / 10) (by omega)]
      simp

/-- What the loop leaves over the text of `n`: the text of `n + 1`, possibly
with its leading one still in the carry. -/
theorem foldr_incStep_carry (n : Nat) (out : List Char) :
    let r := (Nat.toDigits 10 n).foldr incStep (1, out)
    (r.1 = 0 ∧ r.2 = Nat.toDigits 10 (n + 1) ++ out) ∨
      (r.1 = 1 ∧ '1' :: r.2 = Nat.toDigits 10 (n + 1) ++ out) := by
  induction n using Nat.strongRecOn generalizing out with
  | ind n ih =>
    by_cases hn : n < 10
    · rw [Nat.toDigits_of_lt_base hn]
      by_cases h9 : n = 9
      · subst h9
        exact Or.inr ⟨rfl, rfl⟩
      · left
        rw [Nat.toDigits_of_lt_base (by omega : n + 1 < 10), List.foldr_cons, List.foldr_nil,
          incStep_digit (by omega)]
        exact ⟨rfl, rfl⟩
    · have hdigits : Nat.toDigits 10 n = Nat.toDigits 10 (n / 10) ++ [(n % 10).digitChar] :=
        Nat.toDigits_of_base_le (by decide) (by omega)
      have hsucc : Nat.toDigits 10 (n + 1) =
          Nat.toDigits 10 ((n + 1) / 10) ++ [((n + 1) % 10).digitChar] :=
        Nat.toDigits_of_base_le (by decide) (by omega)
      rw [hdigits, List.foldr_append, List.foldr_cons, List.foldr_nil]
      by_cases h9 : n % 10 = 9
      · have hq : (n + 1) / 10 = n / 10 + 1 := by omega
        have hr : (n + 1) % 10 = 0 := by omega
        rw [h9, incStep_nine, hsucc, hq, hr]
        rw [List.append_assoc]
        exact ih (n / 10) (by omega) ('0' :: out)
      · have hq : (n + 1) / 10 = n / 10 := by omega
        have hr : (n + 1) % 10 = n % 10 + 1 := by omega
        left
        rw [incStep_digit (by omega), foldr_incStep_noCarry, hsucc, hq, hr]
        simp

/-- On printed numbers `inc` is the successor. -/
@[simp] theorem inc_repr (n : Nat) : inc n.repr = (n + 1).repr := by
  have h := foldr_incStep_carry n []
  rw [inc, incDigits, Nat.toList_repr, Nat.repr_eq_ofList_toDigits (n := n + 1)]
  generalize (Nat.toDigits 10 n).foldr incStep (1, []) = r at h ⊢
  obtain ⟨carry, out⟩ := r
  simp only [List.append_nil] at h
  obtain ⟨rfl, rfl⟩ | ⟨rfl, hout⟩ := h
  · rfl
  · rw [← hout]
    rfl

/-! ## The comparison on printed numbers -/

/-- Two counters that print alike are equal. -/
theorem repr_injective : Function.Injective Nat.repr := by
  intro a b h
  have hdigits : Nat.toDigits 10 a = Nat.toDigits 10 b := by
    rw [← Nat.toList_repr, ← Nat.toList_repr, h]
  rw [← Nat.ofDigitChars_ten_toDigits (n := a), hdigits, Nat.ofDigitChars_ten_toDigits]

theorem digit_toNat {c : Char} (h : c.isDigit) : 48 ≤ c.toNat ∧ c.toNat ≤ 57 := by
  have h' : 48 ≤ c.val ∧ c.val ≤ 57 := by simpa [Char.isDigit] using h
  exact ⟨UInt32.le_iff_toNat_le.mp h'.1, UInt32.le_iff_toNat_le.mp h'.2⟩

theorem ofDigitChars_cons_zero (c : Char) (cs : List Char) :
    Nat.ofDigitChars 10 (c :: cs) 0 =
      10 ^ cs.length * (c.toNat - 48) + Nat.ofDigitChars 10 cs 0 := by
  rw [Nat.ofDigitChars_cons, Nat.ofDigitChars_eq_ofDigitChars_zero]
  simp

/-- A text of `k` digits stands for a number below `10 ^ k`. -/
theorem ofDigitChars_lt : ∀ (cs : List Char), (∀ c ∈ cs, c.isDigit) →
    Nat.ofDigitChars 10 cs 0 < 10 ^ cs.length
  | [], _ => by simp
  | c :: cs, h => by
    have ih := ofDigitChars_lt cs (fun x hx => h x (List.mem_cons_of_mem _ hx))
    obtain ⟨h0, h9⟩ := digit_toNat (h c List.mem_cons_self)
    have hmul := Nat.mul_le_mul_left (10 ^ cs.length) (show c.toNat - 48 ≤ 9 by omega)
    rw [ofDigitChars_cons_zero, List.length_cons, Nat.pow_succ]
    omega

/-- Among texts of one length the smaller text has the smaller number. -/
theorem lt_iff_ofDigitChars_lt : ∀ (xs ys : List Char), xs.length = ys.length →
    (∀ c ∈ xs, c.isDigit) → (∀ c ∈ ys, c.isDigit) →
    (xs < ys ↔ Nat.ofDigitChars 10 xs 0 < Nat.ofDigitChars 10 ys 0)
  | [], [], _, _, _ => by simp
  | x :: xs, y :: ys, hlen, hx, hy => by
    have hlen' : xs.length = ys.length := by simpa using hlen
    have ih := lt_iff_ofDigitChars_lt xs ys hlen' (fun c hc => hx c (List.mem_cons_of_mem _ hc))
      (fun c hc => hy c (List.mem_cons_of_mem _ hc))
    have hbx := ofDigitChars_lt xs (fun c hc => hx c (List.mem_cons_of_mem _ hc))
    have hby := ofDigitChars_lt ys (fun c hc => hy c (List.mem_cons_of_mem _ hc))
    obtain ⟨hx0, hx9⟩ := digit_toNat (hx x List.mem_cons_self)
    obtain ⟨hy0, hy9⟩ := digit_toNat (hy y List.mem_cons_self)
    rw [List.cons_lt_cons_iff, ofDigitChars_cons_zero, ofDigitChars_cons_zero, hlen']
    rw [hlen'] at hbx
    constructor
    · rintro (hlt | ⟨rfl, hlt⟩)
      · have hstep : x.toNat - 48 + 1 ≤ y.toNat - 48 := by
          have : x.toNat < y.toNat := UInt32.lt_iff_toNat_lt.mp hlt
          omega
        have := Nat.mul_le_mul_left (10 ^ ys.length) hstep
        rw [Nat.mul_add] at this
        omega
      · have := ih.mp hlt
        omega
    · intro hlt
      rcases Nat.lt_trichotomy x.toNat y.toNat with h | h | h
      · exact Or.inl (UInt32.lt_iff_toNat_lt.mpr h)
      · have hxy : x = y := Char.toNat_inj.mp h
        subst hxy
        exact Or.inr ⟨rfl, ih.mpr (by omega)⟩
      · have hstep : y.toNat - 48 + 1 ≤ x.toNat - 48 := by omega
        have := Nat.mul_le_mul_left (10 ^ ys.length) hstep
        rw [Nat.mul_add] at this
        omega

/-- On printed numbers `less` is the order of the numbers. -/
@[simp] theorem less_repr (a b : Nat) : less a.repr b.repr = true ↔ a < b := by
  have hda : ∀ c ∈ Nat.toDigits 10 a, c.isDigit :=
    fun c hc => Nat.isDigit_of_mem_toDigits (by decide) (by decide) hc
  have hdb : ∀ c ∈ Nat.toDigits 10 b, c.isDigit :=
    fun c hc => Nat.isDigit_of_mem_toDigits (by decide) (by decide) hc
  have hlen (n : Nat) : n.repr.length = (Nat.toDigits 10 n).length := by
    rw [← String.length_toList, Nat.toList_repr]
  have hpos (n : Nat) : 0 < (Nat.toDigits 10 n).length := Nat.length_toDigits_pos
  simp only [less, hlen, Bool.or_eq_true, Bool.and_eq_true, decide_eq_true_eq]
  rw [String.lt_iff_toList_lt, Nat.toList_repr, Nat.toList_repr]
  constructor
  · rintro (h | ⟨h, hlt⟩)
    · have hle := (Nat.length_toDigits_le_iff (by decide) (hpos a)).mp (Nat.le_refl _)
      by_contra hge
      have := (Nat.length_toDigits_le_iff (by decide) (hpos a)).mpr (Nat.lt_of_le_of_lt (Nat.le_of_not_lt hge) hle)
      omega
    · simpa [Nat.ofDigitChars_ten_toDigits] using (lt_iff_ofDigitChars_lt _ _ h hda hdb).mp hlt
  · intro hab
    rcases Nat.lt_trichotomy (Nat.toDigits 10 a).length (Nat.toDigits 10 b).length with h | h | h
    · exact Or.inl h
    · refine Or.inr ⟨h, (lt_iff_ofDigitChars_lt _ _ h hda hdb).mpr ?_⟩
      simpa [Nat.ofDigitChars_ten_toDigits] using hab
    · have hle := (Nat.length_toDigits_le_iff (by decide) (hpos b)).mp (Nat.le_refl _)
      have := (Nat.length_toDigits_le_iff (by decide) (hpos b)).mpr (Nat.lt_trans hab hle)
      omega

/-! ## Canonical texts -/

/-- A text of digits without leading zeros, unless it is `0`. -/
def Canonical (s : String) : Prop :=
  s.toList ≠ [] ∧ (∀ c ∈ s.toList, c.isDigit = true) ∧ (s.toList = ['0'] ∨ s.toList.head? ≠ some '0')

/-- The number that a text stands for. -/
def value (s : String) : Nat := Nat.ofDigitChars 10 s.toList 0

@[simp] theorem value_repr (n : Nat) : value n.repr = n := by
  rw [value, Nat.toList_repr, Nat.ofDigitChars_ten_toDigits]

theorem digitChar_sub {c : Char} (h : c.isDigit = true) : (c.toNat - 48).digitChar = c := by
  have hrange := digit_toNat h
  apply Char.toNat_inj.mp
  rw [Nat.toNat_digitChar_of_lt_ten (by omega)]
  omega

/-- A text of digits without leading zeros is what its number prints. -/
theorem toDigits_ofDigitChars {cs : List Char} (hne : cs ≠ [])
    (hdigits : ∀ c ∈ cs, c.isDigit = true) (hlead : cs = ['0'] ∨ cs.head? ≠ some '0') :
    Nat.toDigits 10 (Nat.ofDigitChars 10 cs 0) = cs := by
  induction cs using List.reverseRecOn with
  | nil => exact absurd rfl hne
  | append_singleton front c ih =>
    have hc : c.isDigit = true := hdigits c (by simp)
    have hrange := digit_toNat hc
    rw [Nat.ofDigitChars_append, Nat.ofDigitChars_cons, Nat.ofDigitChars_nil]
    show Nat.toDigits 10 (10 * Nat.ofDigitChars 10 front 0 + (c.toNat - 48)) = front ++ [c]
    by_cases hfront : front = []
    · subst hfront
      rw [Nat.ofDigitChars_nil, Nat.toDigits_of_lt_base (by omega)]
      simp [digitChar_sub hc]
    · have hhead : front.head? ≠ some '0' := by
        rcases hlead with hzero | hlead
        · have hlength := congrArg List.length hzero
          have hpos := List.length_pos_iff.mpr hfront
          rw [List.length_append, List.length_singleton, List.length_singleton] at hlength
          omega
        · rwa [List.head?_append_of_ne_nil _ hfront] at hlead
      have hprefix := ih hfront (fun d hd => hdigits d (by simp [hd])) (Or.inr hhead)
      have hpos : Nat.ofDigitChars 10 front 0 ≠ 0 := by
        intro hzero
        rw [hzero] at hprefix
        exact hhead (by rw [← hprefix]; rfl)
      rw [Nat.toDigits_of_base_le (by decide) (by omega)]
      have hdiv : (10 * Nat.ofDigitChars 10 front 0 + (c.toNat - 48)) / 10 =
          Nat.ofDigitChars 10 front 0 := by omega
      have hmod : (10 * Nat.ofDigitChars 10 front 0 + (c.toNat - 48)) % 10 = c.toNat - 48 := by omega
      rw [hdiv, hmod, hprefix, digitChar_sub hc]

theorem Canonical.repr_value {s : String} (h : Canonical s) : (value s).repr = s := by
  apply String.toList_inj.mp
  rw [Nat.toList_repr]
  exact toDigits_ofDigitChars h.1 h.2.1 h.2.2

/-- The first digit of a number that is not zero is not zero. -/
theorem head_toDigits {n : Nat} (hn : n ≠ 0) : (Nat.toDigits 10 n).head? ≠ some '0' := by
  induction n using Nat.strongRecOn with
  | ind n ih =>
    by_cases hlarge : n < 10
    · rw [Nat.toDigits_of_lt_base hlarge]
      intro hzero
      have hdigit : n.digitChar.toNat = 48 + n := Nat.toNat_digitChar_of_lt_ten hlarge
      rw [Option.some.inj hzero] at hdigit
      have hcode : '0'.toNat = 48 := rfl
      omega
    · rw [Nat.toDigits_of_base_le (by decide) (by omega),
        List.head?_append_of_ne_nil _ (List.ne_nil_of_length_pos Nat.length_toDigits_pos)]
      exact ih (n / 10) (by omega) (by omega)

/-- What a number prints is canonical. -/
theorem canonical_repr (n : Nat) : Canonical n.repr := by
  refine ⟨?_, ?_, ?_⟩
  · rw [Nat.toList_repr]
    exact List.ne_nil_of_length_pos Nat.length_toDigits_pos
  · intro c hc
    rw [Nat.toList_repr] at hc
    exact Nat.isDigit_of_mem_toDigits (by decide) (by decide) hc
  · rw [Nat.toList_repr]
    by_cases hn : n = 0
    · left
      rw [hn]
      rfl
    · right
      exact head_toDigits hn

end Decimal
