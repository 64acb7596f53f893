import Mathlib.Data.List.Basic
import Mathlib.Tactic.Common

/-!
# Decoding UTF-8 as it comes

The UTF-8 decoder of the Encoding Standard, in the mode that rejects what is not UTF-8,
one byte after another.  `Utf8.decode` is the strict decoding of the whole.

* `Decoder.run_append`: the bytes may come in parts.
* `Decoder.decodeAll_eq`: the machine decodes what `Utf8.decode` decodes, and rejects the rest.
* `TextDecoder.stream_append`: the same with the byte order mark, which is dropped at the start.
-/

namespace Utf8

/-- The text that is encoded by these bytes. -/
def decode (bytes : List UInt8) : Option (List Char) := bytes.toByteArray.utf8Decode?.map Array.toList

/-- The bytes that encode a text. -/
def encode (text : List Char) : List UInt8 := text.flatMap String.utf8EncodeChar

theorem toByteArray_encode (text : List Char) : (encode text).toByteArray = text.utf8Encode := rfl

theorem toByteArray_inj {a b : List UInt8} (h : a.toByteArray = b.toByteArray) : a = b := by
  have hdata := congrArg (fun bytes => bytes.data.toList) h
  simpa using hdata

theorem decode_encode (text : List Char) : decode (encode text) = some text := by
  rw [decode, toByteArray_encode, List.utf8Decode?_utf8Encode]
  rfl

/-- A character takes at most four bytes. -/
theorem length_encode_le (text : List Char) : (encode text).length ≤ 4 * text.length := by
  induction text with
  | nil => exact Nat.le_refl _
  | cons c text ih =>
    have hc : (String.utf8EncodeChar c).length ≤ 4 := by
      rw [String.length_utf8EncodeChar]
      exact c.utf8Size_le_four
    unfold encode at ih ⊢
    rw [List.flatMap_cons, List.length_append, List.length_cons]
    omega

theorem encode_of_decode {bytes : List UInt8} {text : List Char} (h : decode bytes = some text) :
    bytes = encode text := by
  unfold decode at h
  obtain ⟨chars, hchars, rfl⟩ := Option.map_eq_some_iff.mp h
  have hsome : bytes.toByteArray.utf8Decode?.isSome = true := by rw [hchars]; rfl
  have hencode := ByteArray.utf8Encode_get_utf8Decode? (h := hsome)
  simp only [hchars, Option.get_some] at hencode
  exact toByteArray_inj (hencode.symm.trans (toByteArray_encode _).symm)

/-! ## The machine -/

/-- Where the decoder is: between two characters, or inside one, with the bits so far, the
bytes that it needs and the range of the next. -/
inductive Decoder where
  | between
  | inside (bits needed lower upper : Nat)
  deriving DecidableEq, Repr

namespace Decoder

/-- The first byte of a character. -/
def first (b : Nat) : Option (Decoder × Option Char) :=
  if b ≤ 0x7F then some (between, some (Char.ofNat b))
  else if 0xC2 ≤ b ∧ b ≤ 0xDF then some (inside (b % 0x20) 1 0x80 0xBF, none)
  else if 0xE0 ≤ b ∧ b ≤ 0xEF then
    some (inside (b % 0x10) 2 (if b = 0xE0 then 0xA0 else 0x80) (if b = 0xED then 0x9F else 0xBF), none)
  else if 0xF0 ≤ b ∧ b ≤ 0xF4 then
    some (inside (b % 0x08) 3 (if b = 0xF0 then 0x90 else 0x80) (if b = 0xF4 then 0x8F else 0xBF), none)
  else none

/-- One byte: the decoder after it, and the character that it ends. -/
def step : Decoder → UInt8 → Option (Decoder × Option Char)
  | between, b => first b.toNat
  | inside bits needed lower upper, b =>
    if lower ≤ b.toNat ∧ b.toNat ≤ upper then
      let bits := bits * 0x40 + b.toNat % 0x40
      if needed = 1 then some (between, some (Char.ofNat bits))
      else some (inside bits (needed - 1) 0x80 0xBF, none)
    else none

/-- The bytes one after another: the decoder after them, and the characters. -/
def run : Decoder → List UInt8 → Option (Decoder × List Char)
  | d, [] => some (d, [])
  | d, b :: bytes =>
    (step d b).bind fun r => (run r.1 bytes).map fun s => (s.1, r.2.toList ++ s.2)

theorem run_cons {d d' : Decoder} {b : UInt8} {c : Option Char} (h : step d b = some (d', c))
    (bytes : List UInt8) :
    run d (b :: bytes) = (run d' bytes).map fun s => (s.1, c.toList ++ s.2) := by
  rw [run, h]
  rfl

/-- The bytes may come in parts. -/
theorem run_append (d : Decoder) (bytes rest : List UInt8) :
    run d (bytes ++ rest) =
      (run d bytes).bind fun r => (run r.1 rest).map fun s => (s.1, r.2 ++ s.2) := by
  induction bytes generalizing d with
  | nil =>
    show run d rest = (run d rest).map fun s => (s.1, s.2)
    simp
  | cons b bytes ih =>
    rw [List.cons_append]
    cases hstep : step d b with
    | none => simp [run, hstep]
    | some r =>
      rw [run_cons hstep, run_cons hstep, ih]
      cases run r.1 bytes with
      | none => rfl
      | some s => simp [Function.comp_def]

/-! ## What it decodes -/

theorem val_ofNat {n : Nat} (h : n.isValidChar) : (Char.ofNat n).val.toNat = n := by
  rw [Char.ofNat, dif_pos h]
  rfl

theorem ofNat_val (c : Char) : Char.ofNat c.val.toNat = c := Char.ofNat_toNat c

section Steps

variable {bits needed lower upper : Nat} {b : UInt8} {bytes : List UInt8}

theorem run_last (hlower : lower ≤ b.toNat) (hupper : b.toNat ≤ upper) :
    run (inside bits 1 lower upper) (b :: bytes) =
      (run between bytes).map fun s => (s.1, Char.ofNat (bits * 0x40 + b.toNat % 0x40) :: s.2) := by
  have hstep : step (inside bits 1 lower upper) b =
      some (between, some (Char.ofNat (bits * 0x40 + b.toNat % 0x40))) := by
    simp [step, hlower, hupper]
  exact run_cons hstep bytes

theorem run_first {d d' : Decoder} (h : step d b = some (d', none)) :
    run d (b :: bytes) = run d' bytes := by
  rw [run_cons h]
  show (run d' bytes).map (fun s => (s.1, s.2)) = _
  simp

theorem run_more (hlower : lower ≤ b.toNat) (hupper : b.toNat ≤ upper) :
    run (inside bits (needed + 2) lower upper) (b :: bytes) =
      run (inside (bits * 0x40 + b.toNat % 0x40) (needed + 1) 0x80 0xBF) bytes := by
  have hstep : step (inside bits (needed + 2) lower upper) b =
      some (inside (bits * 0x40 + b.toNat % 0x40) (needed + 1) 0x80 0xBF, none) := by
    simp [step, hlower, hupper]
  exact run_first hstep

theorem run_one (h : b.toNat ≤ 0x7F) :
    run between (b :: bytes) = (run between bytes).map fun s => (s.1, Char.ofNat b.toNat :: s.2) := by
  have hstep : step between b = some (between, some (Char.ofNat b.toNat)) := by
    simp [step, first, h]
  exact run_cons hstep bytes

theorem first_two {b : Nat} (hlower : 0xC2 ≤ b) (hupper : b ≤ 0xDF) :
    first b = some (inside (b % 0x20) 1 0x80 0xBF, none) := by
  unfold first
  rw [if_neg (by omega), if_pos ⟨hlower, hupper⟩]

theorem first_three {b : Nat} (hlower : 0xE0 ≤ b) (hupper : b ≤ 0xEF) :
    first b = some (inside (b % 0x10) 2 (if b = 0xE0 then 0xA0 else 0x80)
      (if b = 0xED then 0x9F else 0xBF), none) := by
  unfold first
  rw [if_neg (by omega), if_neg (by omega), if_pos ⟨hlower, hupper⟩]

theorem first_four {b : Nat} (hlower : 0xF0 ≤ b) (hupper : b ≤ 0xF4) :
    first b = some (inside (b % 0x08) 3 (if b = 0xF0 then 0x90 else 0x80)
      (if b = 0xF4 then 0x8F else 0xBF), none) := by
  unfold first
  rw [if_neg (by omega), if_neg (by omega), if_neg (by omega), if_pos ⟨hlower, hupper⟩]

end Steps

/-- The machine reads an encoded character. -/
theorem run_encodeChar (c : Char) (bytes : List UInt8) :
    run between (String.utf8EncodeChar c ++ bytes) =
      (run between bytes).map fun s => (s.1, c :: s.2) := by
  have hvalid : c.val.toNat < 0xD800 ∨ 0xDFFF < c.val.toNat ∧ c.val.toNat < 0x110000 := c.valid
  have hchar := ofNat_val c
  generalize hv : c.val.toNat = v at hvalid hchar
  unfold String.utf8EncodeChar
  simp only [hv]
  split
  · next h1 =>
    have hb : (UInt8.ofNat v).toNat = v := by simp; omega
    show run between (UInt8.ofNat v :: bytes) = _
    rw [run_one (by omega), hb, hchar]
  split
  · next h1 h2 =>
    have hb1 : (UInt8.ofNat (v / 64 % 0x20 + 0xc0)).toNat = v / 64 + 0xc0 := by simp; omega
    have hb2 : (UInt8.ofNat (v % 0x40 + 0x80)).toNat = v % 0x40 + 0x80 := by simp; omega
    show run between (UInt8.ofNat (v / 64 % 0x20 + 0xc0) :: UInt8.ofNat (v % 0x40 + 0x80) :: bytes) = _
    rw [run_first (show step between _ = _ from first_two (by omega) (by omega)),
      run_last (by omega) (by omega), hb1, hb2]
    have hbits : (v / 64 + 0xc0) % 0x20 * 0x40 + (v % 0x40 + 0x80) % 0x40 = v := by omega
    rw [hbits, hchar]
  split
  · next h1 h2 h3 =>
    have hb1 : (UInt8.ofNat (v / 4096 % 0x10 + 0xe0)).toNat = v / 4096 + 0xe0 := by simp; omega
    have hb2 : (UInt8.ofNat (v / 64 % 0x40 + 0x80)).toNat = v / 64 % 0x40 + 0x80 := by simp; omega
    have hb3 : (UInt8.ofNat (v % 0x40 + 0x80)).toNat = v % 0x40 + 0x80 := by simp; omega
    show run between (UInt8.ofNat (v / 4096 % 0x10 + 0xe0) :: UInt8.ofNat (v / 64 % 0x40 + 0x80) ::
      UInt8.ofNat (v % 0x40 + 0x80) :: bytes) = _
    rw [run_first (show step between _ = _ from first_three (by omega) (by omega)),
      run_more (by split <;> omega) (by split <;> omega), run_last (by omega) (by omega), hb1, hb2, hb3]
    have hbits : ((v / 4096 + 0xe0) % 0x10 * 0x40 + (v / 64 % 0x40 + 0x80) % 0x40) * 0x40 +
        (v % 0x40 + 0x80) % 0x40 = v := by omega
    rw [hbits, hchar]
  · next h1 h2 h3 =>
    have hb1 : (UInt8.ofNat (v / 262144 % 0x08 + 0xf0)).toNat = v / 262144 + 0xf0 := by simp; omega
    have hb2 : (UInt8.ofNat (v / 4096 % 0x40 + 0x80)).toNat = v / 4096 % 0x40 + 0x80 := by simp; omega
    have hb3 : (UInt8.ofNat (v / 64 % 0x40 + 0x80)).toNat = v / 64 % 0x40 + 0x80 := by simp; omega
    have hb4 : (UInt8.ofNat (v % 0x40 + 0x80)).toNat = v % 0x40 + 0x80 := by simp; omega
    show run between (UInt8.ofNat (v / 262144 % 0x08 + 0xf0) :: UInt8.ofNat (v / 4096 % 0x40 + 0x80) ::
      UInt8.ofNat (v / 64 % 0x40 + 0x80) :: UInt8.ofNat (v % 0x40 + 0x80) :: bytes) = _
    rw [run_first (show step between _ = _ from first_four (by omega) (by omega)),
      run_more (by split <;> omega) (by split <;> omega), run_more (by omega) (by omega),
      run_last (by omega) (by omega), hb1, hb2, hb3, hb4]
    have hbits : (((v / 262144 + 0xf0) % 0x08 * 0x40 + (v / 4096 % 0x40 + 0x80) % 0x40) * 0x40 +
        (v / 64 % 0x40 + 0x80) % 0x40) * 0x40 + (v % 0x40 + 0x80) % 0x40 = v := by omega
    rw [hbits, hchar]

theorem run_encode (text : List Char) : run between (encode text) = some (between, text) := by
  induction text with
  | nil => rfl
  | cons c text ih =>
    show run between (String.utf8EncodeChar c ++ encode text) = _
    rw [run_encodeChar, ih]
    rfl

/-! ## What it rejects -/

section Inversion

variable {bits needed lower upper : Nat} {bytes : List UInt8} {text : List Char}

/-- Inside a character, the last byte ends it. -/
theorem inside_last (h : run (inside bits 1 lower upper) bytes = some (between, text)) :
    ∃ b rest more, bytes = b :: rest ∧ lower ≤ b.toNat ∧ b.toNat ≤ upper ∧
      text = Char.ofNat (bits * 0x40 + b.toNat % 0x40) :: more ∧
        run between rest = some (between, more) := by
  cases bytes with
  | nil => simp [run] at h
  | cons b rest =>
    by_cases hrange : lower ≤ b.toNat ∧ b.toNat ≤ upper
    · rw [run_last hrange.1 hrange.2] at h
      obtain ⟨⟨d, more⟩, hrest, heq⟩ := Option.map_eq_some_iff.mp h
      cases heq
      exact ⟨b, rest, more, rfl, hrange.1, hrange.2, rfl, hrest⟩
    · simp [run, step, hrange] at h

/-- Inside a character, a byte that does not end it leads on. -/
theorem inside_more (h : run (inside bits (needed + 2) lower upper) bytes = some (between, text)) :
    ∃ b rest, bytes = b :: rest ∧ lower ≤ b.toNat ∧ b.toNat ≤ upper ∧
      run (inside (bits * 0x40 + b.toNat % 0x40) (needed + 1) 0x80 0xBF) rest = some (between, text) := by
  cases bytes with
  | nil => simp [run] at h
  | cons b rest =>
    by_cases hrange : lower ≤ b.toNat ∧ b.toNat ≤ upper
    · rw [run_more hrange.1 hrange.2] at h
      exact ⟨b, rest, rfl, hrange.1, hrange.2, h⟩
    · simp [run, step, hrange] at h

/-- Between two characters, a byte is a character or starts one. -/
theorem between_cases {b : UInt8} (h : run between (b :: bytes) = some (between, text)) :
    b.toNat ≤ 0x7F ∨ 0xC2 ≤ b.toNat ∧ b.toNat ≤ 0xDF ∨ 0xE0 ≤ b.toNat ∧ b.toNat ≤ 0xEF ∨
      0xF0 ≤ b.toNat ∧ b.toNat ≤ 0xF4 := by
  by_contra hnone
  have hstep : step between b = none := by
    show first b.toNat = none
    unfold first
    rw [if_neg (by omega), if_neg (by omega), if_neg (by omega), if_neg (by omega)]
  simp [run, hstep] at h

end Inversion

section Encode

variable {a b c d : UInt8}

theorem encodeChar_one (ha : a.toNat ≤ 0x7F) : String.utf8EncodeChar (Char.ofNat a.toNat) = [a] := by
  have hv : a.toNat.isValidChar := .inl (by omega)
  unfold String.utf8EncodeChar
  simp only [val_ofNat hv]
  rw [if_pos (by omega)]
  simp

theorem encodeChar_two (ha : 0xC2 ≤ a.toNat) (ha' : a.toNat ≤ 0xDF) (hb : 0x80 ≤ b.toNat)
    (hb' : b.toNat ≤ 0xBF) :
    String.utf8EncodeChar (Char.ofNat (a.toNat % 0x20 * 0x40 + b.toNat % 0x40)) = [a, b] := by
  have hv : (a.toNat % 0x20 * 0x40 + b.toNat % 0x40).isValidChar := .inl (by omega)
  unfold String.utf8EncodeChar
  simp only [val_ofNat hv]
  rw [if_neg (by omega), if_pos (by omega)]
  simp only [List.cons.injEq, and_true, ← UInt8.toNat_inj, UInt8.toNat_ofNat']
  omega

theorem encodeChar_three (ha : 0xE0 ≤ a.toNat) (ha' : a.toNat ≤ 0xEF)
    (hb : (if a.toNat = 0xE0 then 0xA0 else 0x80) ≤ b.toNat)
    (hb' : b.toNat ≤ if a.toNat = 0xED then 0x9F else 0xBF) (hc : 0x80 ≤ c.toNat) (hc' : c.toNat ≤ 0xBF) :
    String.utf8EncodeChar (Char.ofNat
      ((a.toNat % 0x10 * 0x40 + b.toNat % 0x40) * 0x40 + c.toNat % 0x40)) = [a, b, c] := by
  have hb8 : 0x80 ≤ b.toNat := by split at hb <;> omega
  have hbf : b.toNat ≤ 0xBF := by split at hb' <;> omega
  have he0 : a.toNat = 0xE0 → 0xA0 ≤ b.toNat := fun h => by rwa [if_pos h] at hb
  have hed : a.toNat = 0xED → b.toNat ≤ 0x9F := fun h => by rwa [if_pos h] at hb'
  have hv : ((a.toNat % 0x10 * 0x40 + b.toNat % 0x40) * 0x40 + c.toNat % 0x40).isValidChar := by
    show _ < 0xD800 ∨ 0xDFFF < _ ∧ _ < 0x110000
    omega
  unfold String.utf8EncodeChar
  simp only [val_ofNat hv]
  rw [if_neg (by omega), if_neg (by omega), if_pos (by omega)]
  simp only [List.cons.injEq, and_true, ← UInt8.toNat_inj, UInt8.toNat_ofNat']
  omega

theorem encodeChar_four (ha : 0xF0 ≤ a.toNat) (ha' : a.toNat ≤ 0xF4)
    (hb : (if a.toNat = 0xF0 then 0x90 else 0x80) ≤ b.toNat)
    (hb' : b.toNat ≤ if a.toNat = 0xF4 then 0x8F else 0xBF) (hc : 0x80 ≤ c.toNat) (hc' : c.toNat ≤ 0xBF)
    (hd : 0x80 ≤ d.toNat) (hd' : d.toNat ≤ 0xBF) :
    String.utf8EncodeChar (Char.ofNat (((a.toNat % 0x08 * 0x40 + b.toNat % 0x40) * 0x40 +
      c.toNat % 0x40) * 0x40 + d.toNat % 0x40)) = [a, b, c, d] := by
  have hb8 : 0x80 ≤ b.toNat := by split at hb <;> omega
  have hbf : b.toNat ≤ 0xBF := by split at hb' <;> omega
  have hf0 : a.toNat = 0xF0 → 0x90 ≤ b.toNat := fun h => by rwa [if_pos h] at hb
  have hf4 : a.toNat = 0xF4 → b.toNat ≤ 0x8F := fun h => by rwa [if_pos h] at hb'
  have hv : (((a.toNat % 0x08 * 0x40 + b.toNat % 0x40) * 0x40 + c.toNat % 0x40) * 0x40 +
      d.toNat % 0x40).isValidChar := by
    show _ < 0xD800 ∨ 0xDFFF < _ ∧ _ < 0x110000
    omega
  unfold String.utf8EncodeChar
  simp only [val_ofNat hv]
  rw [if_neg (by omega), if_neg (by omega), if_neg (by omega)]
  simp only [List.cons.injEq, and_true, ← UInt8.toNat_inj, UInt8.toNat_ofNat']
  omega

end Encode

/-- What the machine decodes, back between two characters, is what the bytes encode. -/
theorem encode_of_run {bytes : List UInt8} {text : List Char}
    (h : run between bytes = some (between, text)) : bytes = encode text := by
  match bytes with
  | [] =>
    cases h
    rfl
  | a :: bytes =>
    rcases between_cases h with ha | ⟨ha, ha'⟩ | ⟨ha, ha'⟩ | ⟨ha, ha'⟩
    · rw [run_one ha] at h
      obtain ⟨⟨d, more⟩, hrest, heq⟩ := Option.map_eq_some_iff.mp h
      cases heq
      show _ = String.utf8EncodeChar _ ++ encode more
      rw [encodeChar_one ha, ← encode_of_run hrest]
      rfl
    · rw [run_first (show step between _ = _ from first_two ha ha')] at h
      obtain ⟨b, bytes, more, rfl, hb, hb', rfl, hrest⟩ := inside_last h
      show _ = String.utf8EncodeChar _ ++ encode more
      rw [encodeChar_two ha ha' hb hb', ← encode_of_run hrest]
      rfl
    · rw [run_first (show step between _ = _ from first_three ha ha')] at h
      obtain ⟨b, bytes, rfl, hb, hb', h⟩ := inside_more h
      obtain ⟨c, bytes, more, rfl, hc, hc', rfl, hrest⟩ := inside_last h
      show _ = String.utf8EncodeChar _ ++ encode more
      rw [encodeChar_three ha ha' hb hb' hc hc', ← encode_of_run hrest]
      rfl
    · rw [run_first (show step between _ = _ from first_four ha ha')] at h
      obtain ⟨b, bytes, rfl, hb, hb', h⟩ := inside_more h
      obtain ⟨c, bytes, rfl, hc, hc', h⟩ := inside_more h
      obtain ⟨d, bytes, more, rfl, hd, hd', rfl, hrest⟩ := inside_last h
      show _ = String.utf8EncodeChar _ ++ encode more
      rw [encodeChar_four ha ha' hb hb' hc hc' hd hd', ← encode_of_run hrest]
      rfl
termination_by bytes.length

/-! ## The whole -/

/-- The bytes from the start to the end, which must not be inside a character. -/
def decodeAll (bytes : List UInt8) : Option (List Char) :=
  match run between bytes with
  | some (between, text) => some text
  | _ => none

/-- The machine decodes what the strict decoding decodes, and rejects the rest. -/
theorem decodeAll_eq (bytes : List UInt8) : decodeAll bytes = decode bytes := by
  cases hdecode : decode bytes with
  | some text =>
    rw [encode_of_decode hdecode, decodeAll, run_encode]
  | none =>
    unfold decodeAll
    split
    · next text hrun =>
      rw [encode_of_run hrun, decode_encode] at hdecode
      cases hdecode
    · rfl

end Decoder

/-! ## The byte order mark -/

/-- The text without a byte order mark at its start. -/
def dropMark : List Char → List Char
  | c :: text => if c = '\uFEFF' then text else c :: text
  | [] => []

/-- The strict decoding of the bytes, without the byte order mark. -/
def decodeText (bytes : List UInt8) : Option (List Char) := (decode bytes).map dropMark

/-- What is decoded stays decoded in front of more. -/
theorem decode_append {bytes : List UInt8} {text : List Char} (h : decode bytes = some text)
    (more : List UInt8) : decode (bytes ++ more) = (decode more).map (text ++ ·) := by
  rw [← Decoder.decodeAll_eq, ← Decoder.decodeAll_eq, encode_of_decode h]
  unfold Decoder.decodeAll
  rw [Decoder.run_append, Decoder.run_encode, Option.bind_some]
  cases Decoder.run .between more with
  | none => rfl
  | some r =>
    obtain ⟨d, rest⟩ := r
    cases d <;> rfl

theorem dropMark_append {text : List Char} (h : text ≠ []) (more : List Char) :
    dropMark (text ++ more) = dropMark text ++ more := by
  cases text with
  | nil => exact absurd rfl h
  | cons c text =>
    rw [List.cons_append, dropMark, dropMark]
    split <;> rfl

theorem decodeText_append {bytes : List UInt8} {text : List Char} (h : decodeText bytes = some text)
    (hne : bytes ≠ []) (more : List UInt8) :
    decodeText (bytes ++ more) = (decode more).map (text ++ ·) := by
  obtain ⟨chars, hchars, rfl⟩ := Option.map_eq_some_iff.mp h
  have hsome : chars ≠ [] := by
    rintro rfl
    exact hne (encode_of_decode hchars)
  unfold decodeText
  rw [decode_append hchars, Option.map_map]
  congr 1
  funext rest
  exact dropMark_append hsome rest

/-- A decoder, and whether it is past the place of the byte order mark. -/
structure TextDecoder where
  decoder : Decoder
  markSeen : Bool
  deriving DecidableEq, Repr

namespace TextDecoder

def start : TextDecoder := ⟨.between, false⟩

/-- `decode(chunk, { stream: true })`. -/
def stream (d : TextDecoder) (chunk : List UInt8) : Option (TextDecoder × List Char) :=
  (d.decoder.run chunk).map fun r =>
    (⟨r.1, d.markSeen || !r.2.isEmpty⟩, if d.markSeen then r.2 else dropMark r.2)

/-- `decode()`: the end, which must not be inside a character. -/
def flush (d : TextDecoder) : Option (List Char) :=
  if d.decoder = .between then some [] else none

/-- The chunks may be joined. -/
theorem stream_append (d : TextDecoder) (chunk rest : List UInt8) :
    d.stream (chunk ++ rest) =
      (d.stream chunk).bind fun r => (r.1.stream rest).map fun s => (s.1, r.2 ++ s.2) := by
  unfold stream
  rw [Decoder.run_append]
  cases d.decoder.run chunk with
  | none => rfl
  | some r =>
    obtain ⟨d', text⟩ := r
    show Option.map _ (Option.map _ (d'.run rest)) = Option.map _ (Option.map _ (d'.run rest))
    cases d'.run rest with
    | none => rfl
    | some s =>
      cases hseen : d.markSeen <;> cases text <;> simp [dropMark]
      split <;> rfl

/-- From the start to the end, the whole is decoded. -/
theorem stream_flush (bytes : List UInt8) :
    ((start.stream bytes).bind fun r => (flush r.1).map fun tail => r.2 ++ tail) = decodeText bytes := by
  unfold decodeText
  rw [← Decoder.decodeAll_eq]
  show ((Option.map _ (Decoder.run .between bytes)).bind _) = _
  unfold Decoder.decodeAll
  cases Decoder.run .between bytes with
  | none => rfl
  | some r =>
    obtain ⟨d, text⟩ := r
    cases d with
    | between =>
      show some (dropMark text ++ []) = some (dropMark text)
      rw [List.append_nil]
    | inside bits needed lower upper => rfl

end TextDecoder

end Utf8
