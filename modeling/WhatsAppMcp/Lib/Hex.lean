import Mathlib.Data.List.Basic
import WhatsAppMcp.Lib.Decimal

/-!
# Hexadecimal text

Bytes as pairs of lower-case digits.

* `decode_encode`: what is encoded is decoded.
* `encode_decode`: a text of pairs of lower-case digits is what its bytes encode to.
-/

namespace Hex

/-- `0` to `9` and `a` to `f`. -/
def isDigit (c : Char) : Bool := c.isDigit || ('a' ≤ c && c ≤ 'f')

/-- The value of a digit, in either case. -/
def value (c : Char) : Option Nat :=
  if c.isDigit then some (c.toNat - 48)
  else if 'a' ≤ c ∧ c ≤ 'f' then some (c.toNat - 87)
  else if 'A' ≤ c ∧ c ≤ 'F' then some (c.toNat - 55)
  else none

/-- Two digits for each byte. -/
def encode (bytes : List UInt8) : List Char :=
  bytes.flatMap fun b => [(b.toNat / 16).digitChar, (b.toNat % 16).digitChar]

/-- The bytes of pairs of digits, up to the first that is none. -/
def decode : List Char → List UInt8
  | a :: b :: rest =>
    match value a, value b with
    | some x, some y => UInt8.ofNat (16 * x + y) :: decode rest
    | _, _ => []
  | _ => []

theorem value_digitChar {n : Nat} (h : n < 16) : value n.digitChar = some n :=
  (by decide : ∀ n < 16, value n.digitChar = some n) n h

theorem isDigit_digitChar {n : Nat} (h : n < 16) : isDigit n.digitChar = true :=
  (by decide : ∀ n < 16, isDigit n.digitChar = true) n h

theorem length_encode (bytes : List UInt8) : (encode bytes).length = 2 * bytes.length := by
  induction bytes with
  | nil => rfl
  | cons b bytes ih =>
    unfold encode at ih ⊢
    rw [List.flatMap_cons, List.length_append, ih, List.length_cons (a := b)]
    show 2 + _ = _
    omega

theorem isDigit_encode (bytes : List UInt8) : ∀ c ∈ encode bytes, isDigit c = true := by
  intro c hc
  obtain ⟨b, -, hb⟩ := List.mem_flatMap.mp hc
  have hbyte := b.toNat_lt
  have hpair : c = (b.toNat / 16).digitChar ∨ c = (b.toNat % 16).digitChar := by simpa using hb
  obtain rfl | rfl := hpair
  · exact isDigit_digitChar (by omega)
  · exact isDigit_digitChar (by omega)

/-- What is encoded is decoded. -/
theorem decode_encode (bytes : List UInt8) : decode (encode bytes) = bytes := by
  induction bytes with
  | nil => rfl
  | cons b bytes ih =>
    have hbyte := b.toNat_lt
    show decode ((b.toNat / 16).digitChar :: (b.toNat % 16).digitChar :: encode bytes) = _
    rw [decode, value_digitChar (by omega), value_digitChar (by omega)]
    show UInt8.ofNat (16 * (b.toNat / 16) + b.toNat % 16) :: decode (encode bytes) = _
    rw [ih, Nat.div_add_mod, UInt8.ofNat_toNat]

theorem digit_cases {c : Char} (h : isDigit c = true) :
    ∃ n, n < 16 ∧ value c = some n ∧ n.digitChar = c := by
  by_cases hdecimal : c.isDigit = true
  · have hrange := Decimal.digit_toNat hdecimal
    exact ⟨c.toNat - 48, by omega, if_pos hdecimal, Decimal.digitChar_sub hdecimal⟩
  · have hletter : 'a' ≤ c ∧ c ≤ 'f' := by simpa [isDigit, hdecimal] using h
    have hlow : 97 ≤ c.toNat := UInt32.le_iff_toNat_le.mp hletter.1
    have hhigh : c.toNat ≤ 102 := UInt32.le_iff_toNat_le.mp hletter.2
    have hcases : c.toNat = 97 ∨ c.toNat = 98 ∨ c.toNat = 99 ∨ c.toNat = 100 ∨ c.toNat = 101 ∨
        c.toNat = 102 := by omega
    obtain h | h | h | h | h | h := hcases
    · obtain rfl : c = 'a' := Char.toNat_inj.mp h
      exact ⟨10, by decide, rfl, rfl⟩
    · obtain rfl : c = 'b' := Char.toNat_inj.mp h
      exact ⟨11, by decide, rfl, rfl⟩
    · obtain rfl : c = 'c' := Char.toNat_inj.mp h
      exact ⟨12, by decide, rfl, rfl⟩
    · obtain rfl : c = 'd' := Char.toNat_inj.mp h
      exact ⟨13, by decide, rfl, rfl⟩
    · obtain rfl : c = 'e' := Char.toNat_inj.mp h
      exact ⟨14, by decide, rfl, rfl⟩
    · obtain rfl : c = 'f' := Char.toNat_inj.mp h
      exact ⟨15, by decide, rfl, rfl⟩

/-- A text of pairs of lower-case digits is what its bytes encode to. -/
theorem encode_decode : ∀ (cs : List Char), (∀ c ∈ cs, isDigit c = true) → cs.length % 2 = 0 →
    encode (decode cs) = cs
  | [], _, _ => rfl
  | [_], _, h => by cases h
  | a :: b :: rest, hdigits, heven => by
    obtain ⟨x, hx, hvx, hax⟩ := digit_cases (hdigits a (by simp))
    obtain ⟨y, hy, hvy, hby⟩ := digit_cases (hdigits b (by simp))
    have ih := encode_decode rest (fun c hc => hdigits c (by simp [hc])) (by simp at heven; omega)
    have hbyte : (UInt8.ofNat (16 * x + y)).toNat = 16 * x + y := by
      rw [UInt8.toNat_ofNat']
      omega
    rw [decode, hvx, hvy]
    show _ :: _ :: encode (decode rest) = _
    rw [ih, hbyte, show (16 * x + y) / 16 = x by omega, show (16 * x + y) % 16 = y by omega, hax, hby]

end Hex
