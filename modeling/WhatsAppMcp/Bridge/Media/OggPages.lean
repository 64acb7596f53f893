import Mathlib.Data.Set.Basic
import Mathlib.Order.Bounds.Defs
import WhatsAppMcp.Bridge.Media.Ogg

/-!
# The pages of an Ogg Opus file

What the analysis says of a file that is one page after another.  The pages are given as
data here, with a segment table that agrees with the payload; the file is their encoding.

The seconds of the audio are those between the pre-skip of the first head and the greatest
granule position.  A granule position has 64 bits and the duration that is returned has 32, and
the conversion drops the rest.

* `readPage_encode`: the loop finds a page where it begins.
* `walk_pages`: a run over a file keeps the summary of its pages.
* `duration_iff`: the duration is that of the audio as long as it fits into 32 bits.
-/

namespace WhatsAppMcp.Bridge.Media

open Bytes

/-! ## Encoding -/

/-- A page of an Ogg file. -/
structure OggPage where
  version : UInt8
  headerType : UInt8
  granule : UInt64
  serial : UInt32
  sequence : UInt32
  checksum : UInt32
  segmentTable : List UInt8
  payload : List UInt8
  table_length : segmentTable.length ≤ 255
  payload_length : payload.length = (segmentTable.map UInt8.toNat).sum

namespace OggPage

/-- The head of a page without the number of its segments. -/
def header (p : OggPage) : List UInt8 :=
  oggMagic ++ ([p.version, p.headerType] ++ (bytes 8 p.granule.toNat ++
    (bytes 4 p.serial.toNat ++ (bytes 4 p.sequence.toNat ++ bytes 4 p.checksum.toNat))))

/-- The bytes of a page. -/
def encode (p : OggPage) : List UInt8 :=
  p.header ++ (UInt8.ofNat p.segmentTable.length :: (p.segmentTable ++ p.payload))

@[simp] theorem length_header (p : OggPage) : p.header.length = 26 := by
  simp [header, oggMagic]

theorem length_encode (p : OggPage) :
    p.encode.length = 27 + p.segmentTable.length + p.payload.length := by
  simp [encode]
  omega

theorem numSegments_toNat (p : OggPage) :
    (UInt8.ofNat p.segmentTable.length).toNat = p.segmentTable.length := by
  have := p.table_length
  simp only [UInt8.toNat_ofNat', Nat.reducePow]
  omega

end OggPage

/-- A file. -/
def encodePages (pages : List OggPage) : List UInt8 := pages.flatMap OggPage.encode

/-- The loop finds the page where it begins. -/
theorem readPage_encode (before after : List UInt8) (p : OggPage) :
    readPage (before ++ (p.encode ++ after)) before.length =
      some (.page p.segmentTable.length p.payload.length p.granule.toNat p.payload) := by
  have hlength := p.length_encode
  have hpayload := p.payload_length
  have hmagic : slice (before ++ (p.encode ++ after)) before.length (before.length + 4) =
      some oggMagic := by
    have hparts : p.encode ++ after = oggMagic ++ (p.encode.drop 4 ++ after) := rfl
    rw [hparts]
    exact slice_append before oggMagic _ rfl rfl
  have hgranule : slice (before ++ (p.encode ++ after)) (before.length + 6) (before.length + 14) =
      some (bytes 8 p.granule.toNat) := by
    have hparts : before ++ (p.encode ++ after) = (before ++ oggMagic ++ [p.version, p.headerType]) ++
        (bytes 8 p.granule.toNat ++ (p.encode.drop 14 ++ after)) := by
      simp [OggPage.encode, OggPage.header, oggMagic, bytes]
    rw [hparts]
    exact slice_append _ _ _ (by simp [oggMagic]) (by simp [oggMagic])
  have hsegments : (before ++ (p.encode ++ after))[before.length + 26]? =
      some (UInt8.ofNat p.segmentTable.length) := by
    rw [List.getElem?_append_right (by omega), OggPage.encode, List.append_assoc,
      List.getElem?_append_right (by simp)]
    simp
  have htable : slice (before ++ (p.encode ++ after)) (before.length + 27)
      (before.length + 27 + p.segmentTable.length) = some p.segmentTable := by
    have hparts : before ++ (p.encode ++ after) =
        (before ++ p.header ++ [UInt8.ofNat p.segmentTable.length]) ++
          (p.segmentTable ++ (p.payload ++ after)) := by
      simp [OggPage.encode]
    rw [hparts]
    exact slice_append _ _ _ (by simp) (by simp)
  have hpart : slice (before ++ (p.encode ++ after)) (before.length + (27 + p.segmentTable.length))
      (before.length + (27 + p.segmentTable.length + p.payload.length)) = some p.payload := by
    have hparts : before ++ (p.encode ++ after) =
        (before ++ p.header ++ [UInt8.ofNat p.segmentTable.length] ++ p.segmentTable) ++
          (p.payload ++ after) := by
      simp [OggPage.encode]
    rw [hparts]
    refine slice_append _ _ _ ?_ ?_ <;> simp <;> omega
  have hnumber : littleEndian (bytes 8 p.granule.toNat) = p.granule.toNat :=
    littleEndian_bytes p.granule.toNat_lt
  have hall : (before ++ (p.encode ++ after)).length = before.length + (p.encode.length + after.length) := by
    rw [List.length_append, List.length_append]
  unfold readPage
  rw [if_neg (by omega), hmagic, hgranule, hsegments]
  simp only [Option.bind_eq_bind, Option.bind_some, ne_eq, not_true_eq_false, if_false,
    OggPage.numSegments_toNat, htable, ← hpayload, hpart, hnumber]
  rw [if_neg (by omega), if_neg (by omega)]

/-! ## Heads -/

/-- The first `OpusHead` of the payload is complete, and has this pre-skip. -/
def Declares (payload : List UInt8) (preSkip : Nat) : Prop :=
  ∃ before version channels field after,
    payload = before ++ (opusHead ++ (version :: channels :: (field ++ after))) ∧
      field.length = 2 ∧ littleEndian field = preSkip ∧
      ∀ before' after', payload = before' ++ (opusHead ++ after') → before.length ≤ before'.length

theorem readOpusHead_of_indexOf {before field after : List UInt8} {version channels : UInt8}
    (hfield : field.length = 2) (hindex : indexOf opusHead
      (before ++ (opusHead ++ (version :: channels :: (field ++ after)))) = some before.length) :
    readOpusHead (before ++ (opusHead ++ (version :: channels :: (field ++ after)))) =
      some (some (littleEndian field)) := by
  have hslice : slice (before ++ (opusHead ++ (version :: channels :: (field ++ after))))
      (before.length + 8 + 2) (before.length + 8 + 4) = some field := by
    have hparts : before ++ (opusHead ++ (version :: channels :: (field ++ after))) =
        (before ++ opusHead ++ [version, channels]) ++ (field ++ after) := by simp
    rw [hparts]
    exact slice_append _ _ _ (by simp [opusHead]) (by simp [opusHead, hfield])
  unfold readOpusHead
  rw [hindex]
  show (if before.length + 8 + 4 ≤ _ then _ else _) = _
  rw [if_pos (by simp [opusHead, hfield]; omega), hslice]
  rfl

/-- A head that the page cuts off is not one. -/
theorem readOpusHead_of_short {before after : List UInt8} (hafter : after.length < 4)
    (hindex : indexOf opusHead (before ++ (opusHead ++ after)) = some before.length) :
    readOpusHead (before ++ (opusHead ++ after)) = some none := by
  unfold readOpusHead
  rw [hindex]
  show (if before.length + 8 + 4 ≤ _ then _ else _) = _
  rw [if_neg (by simp [opusHead]; omega)]

theorem readOpusHead_eq_some {payload : List UInt8} {preSkip : Nat} :
    readOpusHead payload = some (some preSkip) ↔ Declares payload preSkip := by
  constructor
  · intro h
    cases hindex : indexOf opusHead payload with
    | none => simp [readOpusHead, hindex] at h
    | some headPos =>
      obtain ⟨before, after, hpayload, rfl⟩ := indexOf_spec hindex
      rw [List.append_assoc] at hpayload
      subst hpayload
      by_cases hafter : after.length < 4
      · rw [readOpusHead_of_short hafter hindex] at h
        cases h
      · obtain ⟨version, channels, lo, hi, after, rfl⟩ : ∃ version channels lo hi rest,
            after = version :: channels :: lo :: hi :: rest := by
          match after with
          | version :: channels :: lo :: hi :: rest => exact ⟨version, channels, lo, hi, rest, rfl⟩
          | [] | [_] | [_, _] | [_, _, _] => simp at hafter
        have hread : readOpusHead (before ++ (opusHead ++ (version :: channels :: ([lo, hi] ++ after)))) =
            some (some (littleEndian [lo, hi])) := readOpusHead_of_indexOf rfl hindex
        have hpreSkip : littleEndian [lo, hi] = preSkip := by
          have := hread.symm.trans h
          simpa using this
        refine ⟨before, version, channels, [lo, hi], after, rfl, rfl, hpreSkip, ?_⟩
        intro before' after' hpayload
        obtain ⟨k, hk, hle⟩ := indexOf_le (hpayload.trans (List.append_assoc _ _ _).symm)
        have : k = before.length := by simpa [hindex] using hk.symm
        omega
  · rintro ⟨before, version, channels, field, after, rfl, hfield, rfl, hfirst⟩
    apply readOpusHead_of_indexOf hfield
    obtain ⟨k, hk, hle⟩ := indexOf_le (List.append_assoc before opusHead
      (version :: channels :: (field ++ after))).symm
    obtain ⟨before', after', hpayload, hlength⟩ := indexOf_spec hk
    have hge := hfirst before' after' (hpayload.trans (List.append_assoc _ _ _))
    rw [hk, show k = before.length by omega]

theorem Declares.unique {payload : List UInt8} {a b : Nat} (ha : Declares payload a)
    (hb : Declares payload b) : a = b := by
  have := (readOpusHead_eq_some.mpr ha).symm.trans (readOpusHead_eq_some.mpr hb)
  simpa using this

/-- The first complete head of the file has this pre-skip. -/
def FirstHead (pages : List OggPage) (preSkip : Nat) : Prop :=
  ∃ earlier page later, pages = earlier ++ page :: later ∧ Declares page.payload preSkip ∧
    ∀ page' ∈ earlier, ∀ preSkip', ¬ Declares page'.payload preSkip'

/-! ## Summary -/

/-- The granule positions of the pages that have one. -/
def granules (pages : List OggPage) : Set Nat :=
  {n | ∃ page ∈ pages, page.granule.toNat = n ∧ n ≠ noGranule}

/-- What the loop knows after these pages. -/
structure Summary (pages : List OggPage) (s : OggScan) : Prop where
  upper : ∀ n ∈ granules pages, n ≤ s.lastGranule
  attained : s.lastGranule = 0 ∨ s.lastGranule ∈ granules pages
  head : s.foundOpusHead = true → FirstHead pages s.preSkip
  noHead : s.foundOpusHead = false → ∀ page ∈ pages, ∀ preSkip, ¬ Declares page.payload preSkip

theorem granules_append_singleton {pages : List OggPage} {p : OggPage} {n : Nat} :
    n ∈ granules (pages ++ [p]) ↔ n ∈ granules pages ∨ p.granule.toNat = n ∧ n ≠ noGranule := by
  simp only [granules, Set.mem_ofPred_eq, List.mem_append, List.mem_singleton]
  constructor
  · rintro ⟨page, hpage | rfl, hn⟩
    · exact Or.inl ⟨page, hpage, hn⟩
    · exact Or.inr hn
  · rintro (⟨page, hpage, hn⟩ | hn)
    · exact ⟨page, Or.inl hpage, hn⟩
    · exact ⟨p, Or.inr rfl, hn⟩

theorem FirstHead.append {pages : List OggPage} {preSkip : Nat} (h : FirstHead pages preSkip)
    (p : OggPage) : FirstHead (pages ++ [p]) preSkip := by
  obtain ⟨earlier, page, later, rfl, hpage, hearlier⟩ := h
  exact ⟨earlier, page, later ++ [p], by simp, hpage, hearlier⟩

/-- A file has one first head. -/
theorem FirstHead.unique {pages : List OggPage} {a b : Nat} (ha : FirstHead pages a)
    (hb : FirstHead pages b) : a = b := by
  obtain ⟨earlier, page, later, rfl, hpage, hearlier⟩ := ha
  obtain ⟨earlier', page', later', hpages, hpage', hearlier'⟩ := hb
  obtain ⟨middle, rfl, hlater⟩ | ⟨middle, rfl, hlater⟩ := List.append_eq_append_iff.mp hpages
  · cases middle with
    | nil =>
      obtain ⟨rfl, -⟩ := List.cons.inj hlater
      exact hpage.unique hpage'
    | cons first middle =>
      obtain ⟨rfl, -⟩ := List.cons.inj hlater
      exact absurd hpage (hearlier' page (by simp) a)
  · cases middle with
    | nil =>
      obtain ⟨rfl, -⟩ := List.cons.inj hlater
      exact hpage.unique hpage'
    | cons first middle =>
      obtain ⟨rfl, -⟩ := List.cons.inj hlater
      exact absurd hpage' (hearlier page' (by simp) b)

/-- What a page adds to the greatest granule position. -/
theorem higherGranule_spec (last granulePos : Nat) :
    last ≤ higherGranule last granulePos ∧
      (granulePos ≠ noGranule → granulePos ≤ higherGranule last granulePos) ∧
      (higherGranule last granulePos = last ∨
        granulePos ≠ noGranule ∧ higherGranule last granulePos = granulePos) := by
  unfold higherGranule
  split
  · next h => exact ⟨by omega, fun _ => Nat.le_refl _, Or.inr ⟨h.1, rfl⟩⟩
  · next h => exact ⟨Nat.le_refl _, fun hne => by omega, Or.inl rfl⟩

/-- The pre-skip that a page adds is that of the first head. -/
theorem Summary.head_add {pages : List OggPage} {s : OggScan} {head : Option Nat} (h : Summary pages s)
    (p : OggPage) (hhead : s.head p.payload = some head) :
    ((s.foundOpusHead || head.isSome) = true → FirstHead (pages ++ [p]) (head.getD s.preSkip)) ∧
      ((s.foundOpusHead || head.isSome) = false →
        ∀ page ∈ pages ++ [p], ∀ preSkip, ¬ Declares page.payload preSkip) := by
  unfold OggScan.head at hhead
  cases hfound : s.foundOpusHead with
  | true =>
    rw [hfound] at hhead
    cases hhead
    exact ⟨fun _ => (h.head hfound).append p, fun hfalse => by simp at hfalse⟩
  | false =>
    rw [hfound] at hhead
    cases head with
    | none =>
      refine ⟨fun htrue => by simp at htrue, fun _ page hpage preSkip hdeclares => ?_⟩
      rcases List.mem_append.mp hpage with hpage | hpage
      · exact h.noHead hfound page hpage preSkip hdeclares
      · rw [List.mem_singleton.mp hpage] at hdeclares
        have := hhead.symm.trans (readOpusHead_eq_some.mpr hdeclares)
        cases this
    | some preSkip =>
      refine ⟨fun _ => ?_, fun hfalse => by simp at hfalse⟩
      exact ⟨pages, p, [], rfl, readOpusHead_eq_some.mp hhead, h.noHead hfound⟩

/-- One page keeps the summary. -/
theorem Summary.step {pages : List OggPage} {s : OggScan} (h : Summary pages s) (p : OggPage) :
    ∃ s', s.add p.granule.toNat p.payload = some s' ∧ Summary (pages ++ [p]) s' := by
  obtain ⟨s', hs'⟩ := Option.isSome_iff_exists.mp (add_isSome s p.granule.toNat p.payload)
  refine ⟨s', hs', ?_⟩
  obtain ⟨head, hhead, rfl⟩ := Option.map_eq_some_iff.mp hs'
  obtain ⟨hle, hnew, heither⟩ := higherGranule_spec s.lastGranule p.granule.toNat
  obtain ⟨hfirst, hnone⟩ := h.head_add p hhead
  refine ⟨?_, ?_, hfirst, hnone⟩
  · intro n hn
    rcases granules_append_singleton.mp hn with hn | ⟨rfl, hne⟩
    · exact Nat.le_trans (h.upper n hn) hle
    · exact hnew hne
  · show higherGranule s.lastGranule p.granule.toNat = 0 ∨ _
    rcases heither with hsame | ⟨hne, hsame⟩
    · rw [hsame]
      exact h.attained.imp id fun hmem => granules_append_singleton.mpr (Or.inl hmem)
    · rw [hsame]
      exact Or.inr (granules_append_singleton.mpr (Or.inr ⟨rfl, hne⟩))

/-- The walk over a file, from the end of the pages that the summary is of. -/
theorem walk_pages {before after : List OggPage} {s : OggScan} (h : Summary before s) :
    ∃ s', walk (encodePages (before ++ after)) (encodePages before).length s = some s' ∧
      Summary (before ++ after) s' := by
  induction after generalizing before s with
  | nil =>
    refine ⟨s, ?_, by simpa using h⟩
    rw [List.append_nil, walk, if_neg (Nat.lt_irrefl _)]
  | cons p after ih =>
    obtain ⟨s', hadd, hs'⟩ := h.step p
    obtain ⟨out, hwalk, hout⟩ := ih hs'
    have hdata : encodePages (before ++ p :: after) =
        encodePages before ++ (p.encode ++ encodePages after) := by
      simp [encodePages]
    have hplace : (encodePages (before ++ [p])).length =
        (encodePages before).length + (27 + p.segmentTable.length + p.payload.length) := by
      simp [encodePages, p.length_encode]
    have hsame : before ++ [p] ++ after = before ++ p :: after := by simp
    rw [hsame, hplace] at hwalk
    refine ⟨out, ?_, hsame ▸ hout⟩
    have hinside : (encodePages before).length <
        (encodePages before ++ (p.encode ++ encodePages after)).length := by
      simp only [List.length_append, p.length_encode]
      omega
    rw [walk, hdata, if_pos hinside, readPage_encode]
    simp only [hadd, ← hdata]
    exact hwalk

/-! ## Duration -/

/-- The first bytes of a file with pages. -/
theorem take_encodePages {pages : List OggPage} (h : pages ≠ []) :
    (encodePages pages).take 4 = oggMagic := by
  cases pages with
  | nil => exact absurd rfl h
  | cons p pages => rfl

/-- The analysis of a file with a head and a granule position. -/
theorem analyzeOggOpus_encodePages {pages : List OggPage} {preSkip g : Nat}
    (hhead : FirstHead pages preSkip) (hg : IsGreatest (granules pages) g) (hpos : 0 < g) :
    ∃ waveform, analyzeOggOpus (encodePages pages) = some (.ok (durationOf g preSkip, waveform)) ∧
      waveform.length = 64 := by
  have hempty : Summary [] .empty :=
    ⟨fun n ⟨page, hpage, _⟩ => by simp at hpage, Or.inl rfl, fun h => by simp [OggScan.empty] at h,
      fun _ page hpage => by simp at hpage⟩
  obtain ⟨s, hwalk, hs⟩ : ∃ s, walk (encodePages pages) 0 .empty = some s ∧ Summary pages s :=
    walk_pages hempty
  have hgranule : s.lastGranule = g := by
    have hle := hs.upper g hg.1
    rcases hs.attained with hzero | hmem
    · omega
    · exact Nat.le_antisymm (hg.2 hmem) hle
  have hfound : s.foundOpusHead = true := by
    cases hfound : s.foundOpusHead with
    | true => rfl
    | false =>
      obtain ⟨earlier, page, later, rfl, hpage, -⟩ := hhead
      exact absurd hpage (hs.noHead hfound page (by simp) preSkip)
  have hpreSkip : s.preSkip = preSkip := (hs.head hfound).unique hhead
  have hne : pages ≠ [] := by
    rintro rfl
    obtain ⟨earlier, page, later, hpages, -⟩ := hhead
    simp at hpages
  have hanswer := analyzeOggOpus_of_walk (take_encodePages hne) hwalk hfound (by omega)
  rwa [hgranule, hpreSkip] at hanswer

/-- The duration is that of the audio as long as this fits into 32 bits. -/
theorem durationOf_toNat_iff (g preSkip : Nat) :
    (durationOf g preSkip).toNat = max 1 ((g - preSkip) / 48000) ↔ (g - preSkip) / 48000 < 2 ^ 32 := by
  have hbound := (durationOf g preSkip).toNat_lt
  constructor
  · omega
  · intro hlt
    have hseconds : (UInt32.ofNat ((g - preSkip) / 48000)).toNat = (g - preSkip) / 48000 :=
      UInt32.toNat_ofNat_of_lt' hlt
    unfold durationOf
    dsimp only
    split
    · split
      · next hzero =>
        rw [hzero] at hseconds
        simp [← hseconds]
      · next hne =>
        have : (UInt32.ofNat ((g - preSkip) / 48000)).toNat ≠ 0 :=
          fun h0 => hne (UInt32.toNat_inj.mp h0)
        omega
    · next hle =>
      rw [show g - preSkip = 0 by omega]
      rfl

/-- Every input has an answer, and a file of pages has the duration of its audio exactly when the
seconds fit into 32 bits. -/
theorem duration_iff (data : List UInt8) (pages : List OggPage) (preSkip g : Nat) :
    ((∃ message, analyzeOggOpus data = some (.error message)) ∨
      ∃ duration waveform, analyzeOggOpus data = some (.ok (duration, waveform)) ∧
        0 < duration ∧ waveform.length = 64) ∧
    (FirstHead pages preSkip → IsGreatest (granules pages) g → 0 < g →
      ((∃ duration waveform, analyzeOggOpus (encodePages pages) = some (.ok (duration, waveform)) ∧
        waveform.length = 64 ∧ duration.toNat = max 1 ((g - preSkip) / 48000)) ↔
      (g - preSkip) / 48000 < 2 ^ 32)) := by
  refine ⟨analyzeOggOpus_total data, fun hhead hg hpos => ?_⟩
  obtain ⟨waveform, hanswer, hlength⟩ := analyzeOggOpus_encodePages hhead hg hpos
  rw [← durationOf_toNat_iff]
  constructor
  · rintro ⟨duration, waveform', hanswer', -, hduration⟩
    have hsame := hanswer.symm.trans hanswer'
    simp only [Option.some.injEq, Except.ok.injEq, Prod.mk.injEq] at hsame
    rw [hsame.1]
    exact hduration
  · exact fun hduration => ⟨_, waveform, hanswer, hlength, hduration⟩

/-- A file of one page with a head: its granule position is the end of the audio. -/
def onePage (granule : UInt64) : OggPage where
  version := 0
  headerType := 2
  granule := granule
  serial := 0
  sequence := 0
  checksum := 0
  segmentTable := [19]
  payload := opusHead ++ [1, 1, 0x38, 1, 0x80, 0xBB, 0, 0, 0, 0, 0]
  table_length := by decide
  payload_length := by decide

theorem onePage_head (granule : UInt64) : FirstHead [onePage granule] 312 := by
  refine ⟨[], onePage granule, [], rfl, ?_, fun _ h => absurd h List.not_mem_nil⟩
  exact ⟨[], 1, 1, [0x38, 1], [0x80, 0xBB, 0, 0, 0, 0, 0], rfl, rfl, rfl,
    fun _ _ _ => Nat.zero_le _⟩

theorem onePage_greatest {granule : UInt64} (h : granule.toNat ≠ noGranule) :
    IsGreatest (granules [onePage granule]) granule.toNat := by
  constructor
  · exact ⟨onePage granule, List.mem_singleton.mpr rfl, rfl, h⟩
  · rintro n ⟨page, hpage, rfl, -⟩
    rw [List.mem_singleton.mp hpage]
    exact Nat.le_refl _

/-- Three seconds of audio. -/
theorem duration_three : ∃ duration waveform,
    analyzeOggOpus (encodePages [onePage 144312]) = some (.ok (duration, waveform)) ∧
      waveform.length = 64 ∧ duration.toNat = 3 :=
  ((duration_iff [] [onePage 144312] 312 144312).2 (onePage_head _) (onePage_greatest (by decide))
    (by decide)).mpr (by decide)

/-- Of `2 ^ 32` seconds of audio nothing is left, and the duration is a second. -/
theorem duration_dropped :
    (∃ waveform, analyzeOggOpus (encodePages [onePage 206158430208312]) = some (.ok (1, waveform))) ∧
    ¬ ∀ pages preSkip g, FirstHead pages preSkip → IsGreatest (granules pages) g → 0 < g →
      ∃ duration waveform, analyzeOggOpus (encodePages pages) = some (.ok (duration, waveform)) ∧
        waveform.length = 64 ∧ duration.toNat = max 1 ((g - preSkip) / 48000) := by
  have hgreatest : IsGreatest (granules [onePage 206158430208312]) 206158430208312 :=
    onePage_greatest (by decide)
  obtain ⟨waveform, hanswer, -⟩ := analyzeOggOpus_encodePages (onePage_head _) hgreatest (by decide)
  refine ⟨⟨waveform, hanswer⟩, fun hclaim => ?_⟩
  obtain ⟨duration, waveform', hanswer', -, hduration⟩ :=
    hclaim _ _ _ (onePage_head _) hgreatest (by decide)
  have hsame := hanswer.symm.trans hanswer'
  simp only [Option.some.injEq, Except.ok.injEq, Prod.mk.injEq] at hsame
  rw [← hsame.1] at hduration
  exact absurd hduration (by decide)

end WhatsAppMcp.Bridge.Media
