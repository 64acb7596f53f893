import WhatsAppMcp.Lib.Bytes

/-!
# The analysis of Ogg Opus

`bridge/media/ogg.go`: the duration and the waveform of a voice note, read off the pages of
an upload that may be any bytes.

An index or a slice outside the data is a fault, which is `none`.  A granule position is a
number below `2 ^ 64`, and the duration is a word of 32 bits, into which the source
converts without a check.  A loudness is a `Float`; the index of a bin is exact in a `float64`, as
the number of bins is a power of two.

* `walk_isSome`: the walk over the pages has no fault and comes to an end.
* `analyzeOggOpus_total`: every input has an answer, with a waveform of 64 bytes.
-/

namespace WhatsAppMcp.Bridge.Media

open Bytes (slice slice_of_le littleEndian indexOf)

/-! ## Loudness -/

/-- `computePageLoudness`. -/
def computePageLoudness (payload : List UInt8) : Float :=
  if payload.isEmpty then 0
  else
    let sum := payload.foldl (fun sum b =>
      let v := b.toNat.toFloat - 128
      sum + v * v) 0
    Float.sqrt (sum / payload.length.toFloat)

/-- One bin of the waveform: the samples on both sides of its place, in proportion. -/
def waveformBin (samples : List Float) (n : Nat) (maxVal : Float) (i : Nat) : Option UInt8 := do
  let lo := i * samples.length / n
  let hi := if lo + 1 ≥ samples.length then samples.length - 1 else lo + 1
  let frac := (i * samples.length % n).toFloat / n.toFloat
  let left ← samples[lo]?
  let right ← samples[hi]?
  let normalized := (left * (1 - frac) + right * frac) / maxVal * 100
  some (if normalized > 100 then 100 else normalized).toUInt8

/-- `buildWaveform`. -/
def buildWaveform (samples : List Float) (n : Nat) : Option (List UInt8) :=
  let maxVal := samples.foldl (fun m v => if v > m then v else m) 0
  if samples.isEmpty || maxVal == 0 then some (List.replicate n 0)
  else (List.range n).mapM (waveformBin samples n maxVal)

/-! ## Pages -/

/-- `OggS`. -/
def oggMagic : List UInt8 := [0x4F, 0x67, 0x67, 0x53]

/-- `OpusHead`. -/
def opusHead : List UInt8 := [0x4F, 0x70, 0x75, 0x73, 0x48, 0x65, 0x61, 0x64]

/-- The granule position of a page without a packet that ends on it. -/
def noGranule : Nat := 0xFFFFFFFFFFFFFFFF

/-- What the loop finds at a place: the end of what it can read, no page, or a page. -/
inductive Found where
  | stop
  | skip
  | page (numSegments payloadSize granulePos : Nat) (pagePayload : List UInt8)
  deriving DecidableEq, Repr

/-- The head of the loop: what is at the place `i`. -/
def readPage (data : List UInt8) (i : Nat) : Option Found :=
  if data.length < i + 27 then some .stop
  else do
    let magic ← slice data i (i + 4)
    if magic ≠ oggMagic then some .skip
    else do
      let granule ← slice data (i + 6) (i + 14)
      let segments ← data[i + 26]?
      let numSegments := segments.toNat
      if data.length < i + 27 + numSegments then some .stop
      else do
        let segmentTable ← slice data (i + 27) (i + 27 + numSegments)
        let payloadSize := (segmentTable.map UInt8.toNat).sum
        if data.length < i + (27 + numSegments + payloadSize) then some .stop
        else do
          let pagePayload ← slice data (i + (27 + numSegments)) (i + (27 + numSegments + payloadSize))
          some (.page numSegments payloadSize (littleEndian granule) pagePayload)

/-- What the loop keeps of the pages. -/
structure OggScan where
  lastGranule : Nat
  preSkip : Nat
  foundOpusHead : Bool
  pageSamples : List Float

def OggScan.empty : OggScan := ⟨0, 0, false, []⟩

/-- The pre-skip of an `OpusHead` in the payload, where it is complete. -/
def readOpusHead (pagePayload : List UInt8) : Option (Option Nat) :=
  match indexOf opusHead pagePayload with
  | none => some none
  | some headPos =>
    let hp := headPos + 8
    if hp + 4 ≤ pagePayload.length then
      (slice pagePayload (hp + 2) (hp + 4)).map fun field => some (littleEndian field)
    else some none

/-- The granule position, where it is one and is higher. -/
def higherGranule (last granulePos : Nat) : Nat :=
  if granulePos ≠ noGranule ∧ last < granulePos then granulePos else last

/-- The pre-skip that a page adds: only the first head counts. -/
def OggScan.head (s : OggScan) (pagePayload : List UInt8) : Option (Option Nat) :=
  if s.foundOpusHead then some none else readOpusHead pagePayload

/-- The rest of the loop: what a page adds. -/
def OggScan.add (s : OggScan) (granulePos : Nat) (pagePayload : List UInt8) : Option OggScan :=
  (s.head pagePayload).map fun head => {
    lastGranule := higherGranule s.lastGranule granulePos
    preSkip := head.getD s.preSkip
    foundOpusHead := s.foundOpusHead || head.isSome
    pageSamples :=
      if pagePayload.isEmpty then s.pageSamples
      else s.pageSamples ++ [computePageLoudness pagePayload] }

/-- The loop over the pages from the place `i` on. -/
def walk (data : List UInt8) (i : Nat) (s : OggScan) : Option OggScan :=
  if i < data.length then
    match readPage data i with
    | none => none
    | some .stop => some s
    | some .skip => walk data (i + 1) s
    | some (.page numSegments payloadSize granulePos pagePayload) =>
      match s.add granulePos pagePayload with
      | none => none
      | some s => walk data (i + (27 + numSegments + payloadSize)) s
  else some s
termination_by data.length - i

/-- `durationSeconds`. -/
def durationOf (lastGranule preSkip : Nat) : UInt32 :=
  if preSkip < lastGranule then
    let seconds := UInt32.ofNat ((lastGranule - preSkip) / 48000)
    if seconds = 0 then 1 else seconds
  else 1

/-- `AnalyzeOggOpus`. -/
def analyzeOggOpus (data : List UInt8) : Option (Except String (UInt32 × List UInt8)) :=
  if data.length < 4 then some (.error "not a valid Ogg file (missing OggS signature)")
  else do
    let magic ← slice data 0 4
    if magic ≠ oggMagic then some (.error "not a valid Ogg file (missing OggS signature)")
    else do
      let s ← walk data 0 .empty
      if !s.foundOpusHead then some (.error "OpusHead not found, may not be an Opus file")
      else if s.lastGranule = 0 then some (.error "no valid granule positions found")
      else do
        let waveform ← buildWaveform s.pageSamples 64
        some (.ok (durationOf s.lastGranule s.preSkip, waveform))

/-! ## No fault -/

theorem waveformBin_isSome {samples : List Float} {n i : Nat} {maxVal : Float} (hi : i < n)
    (hne : samples ≠ []) : (waveformBin samples n maxVal i).isSome = true := by
  have hpos := List.length_pos_of_ne_nil hne
  have hlo : i * samples.length / n < samples.length := by
    apply Nat.div_lt_of_lt_mul
    exact Nat.mul_lt_mul_of_pos_right hi hpos
  have hhi : (if i * samples.length / n + 1 ≥ samples.length then samples.length - 1
      else i * samples.length / n + 1) < samples.length := by
    split <;> omega
  unfold waveformBin
  dsimp only
  rw [List.getElem?_eq_getElem hlo, List.getElem?_eq_getElem hhi]
  rfl

theorem mapM_isSome {α β : Type} {f : α → Option β} {l : List α} (h : ∀ a ∈ l, (f a).isSome = true) :
    ∃ out, l.mapM f = some out ∧ out.length = l.length := by
  induction l with
  | nil => exact ⟨[], rfl, rfl⟩
  | cons a l ih =>
    obtain ⟨b, hb⟩ := Option.isSome_iff_exists.mp (h a List.mem_cons_self)
    obtain ⟨out, hout, hlength⟩ := ih fun a' ha' => h a' (List.mem_cons_of_mem _ ha')
    refine ⟨b :: out, ?_, congrArg (· + 1) hlength⟩
    rw [List.mapM_cons, hb, hout]
    rfl

/-- The waveform has as many bytes as bins. -/
theorem buildWaveform_length (samples : List Float) (n : Nat) :
    ∃ waveform, buildWaveform samples n = some waveform ∧ waveform.length = n := by
  unfold buildWaveform
  dsimp only
  split
  · exact ⟨_, rfl, List.length_replicate⟩
  · next hsamples =>
    have hne : samples ≠ [] := by
      rintro rfl
      exact hsamples rfl
    have hbins : ∀ i ∈ List.range n, (waveformBin samples n
        (samples.foldl (fun m v => if v > m then v else m) 0) i).isSome = true :=
      fun i hi => waveformBin_isSome (List.mem_range.mp hi) hne
    obtain ⟨out, hout, hlength⟩ := mapM_isSome hbins
    exact ⟨out, hout, hlength.trans List.length_range⟩

theorem readPage_isSome {data : List UInt8} {i : Nat} : (readPage data i).isSome = true := by
  unfold readPage
  split
  · rfl
  · next hheader =>
    rw [slice_of_le (by omega) (by omega), slice_of_le (by omega) (by omega),
      List.getElem?_eq_getElem (show i + 26 < data.length by omega)]
    simp only [Option.bind_eq_bind, Option.bind_some]
    split
    · rfl
    split
    · rfl
    · next htable =>
      rw [slice_of_le (by omega) (by omega)]
      simp only [Option.bind_some]
      split
      · rfl
      · next hpayload =>
        rw [slice_of_le (by omega) (by omega)]
        rfl

theorem readOpusHead_isSome (pagePayload : List UInt8) : (readOpusHead pagePayload).isSome = true := by
  unfold readOpusHead
  split
  · rfl
  · dsimp only
    split
    · next hfield =>
      rw [slice_of_le (by omega) (by omega)]
      rfl
    · rfl

theorem add_isSome (s : OggScan) (granulePos : Nat) (pagePayload : List UInt8) :
    (s.add granulePos pagePayload).isSome = true := by
  have hhead : (s.head pagePayload).isSome = true := by
    unfold OggScan.head
    split
    · rfl
    · exact readOpusHead_isSome pagePayload
  simpa [OggScan.add] using hhead

/-- The walk has no fault and comes to an end. -/
theorem walk_isSome (data : List UInt8) (i : Nat) (s : OggScan) : (walk data i s).isSome = true := by
  fun_induction walk data i s with
  | case1 i s hlt hnone =>
    have hpage : (readPage data i).isSome = true := readPage_isSome
    rw [hnone] at hpage
    exact hpage
  | case2 i s hlt hstop => rfl
  | case3 i s hlt hskip ih => exact ih
  | case4 i s hlt numSegments payloadSize granulePos pagePayload hpage hnone =>
    have hadd := add_isSome s granulePos pagePayload
    rw [hnone] at hadd
    exact hadd
  | case5 i s hlt numSegments payloadSize granulePos pagePayload hpage s' hadd ih => exact ih
  | case6 i s hge => rfl

theorem durationOf_pos (lastGranule preSkip : Nat) : 0 < durationOf lastGranule preSkip := by
  unfold durationOf
  dsimp only
  split
  · split
    · decide
    · next hne => exact UInt32.pos_iff_ne_zero.mpr hne
  · decide

/-- What the analysis says of a scan that it ends with. -/
theorem analyzeOggOpus_of_walk {data : List UInt8} {s : OggScan} (hmagic : data.take 4 = oggMagic)
    (hwalk : walk data 0 .empty = some s) (hfound : s.foundOpusHead = true)
    (hgranule : s.lastGranule ≠ 0) :
    ∃ waveform, analyzeOggOpus data = some (.ok (durationOf s.lastGranule s.preSkip, waveform)) ∧
      waveform.length = 64 := by
  obtain ⟨waveform, hwaveform, hlength⟩ := buildWaveform_length s.pageSamples 64
  have hfour : 4 ≤ data.length := by
    have := congrArg List.length hmagic
    simp only [List.length_take, oggMagic, List.length_cons, List.length_nil] at this
    omega
  refine ⟨waveform, ?_, hlength⟩
  unfold analyzeOggOpus
  rw [if_neg (by omega), slice_of_le (by omega) hfour, List.drop_zero, hmagic, hwalk]
  simp [hfound, hgranule, hwaveform]

/-- Every input has an answer: an error, or a duration with a waveform of 64 bytes. -/
theorem analyzeOggOpus_total (data : List UInt8) :
    (∃ message, analyzeOggOpus data = some (.error message)) ∨
      ∃ duration waveform, analyzeOggOpus data = some (.ok (duration, waveform)) ∧
        0 < duration ∧ waveform.length = 64 := by
  by_cases hfour : data.length < 4
  · exact Or.inl ⟨_, if_pos hfour⟩
  by_cases hmagic : data.take 4 = oggMagic
  · obtain ⟨s, hs⟩ := Option.isSome_iff_exists.mp (walk_isSome data 0 .empty)
    cases hfound : s.foundOpusHead with
    | false =>
      refine Or.inl ⟨"OpusHead not found, may not be an Opus file", ?_⟩
      unfold analyzeOggOpus
      rw [if_neg hfour, slice_of_le (by omega) (by omega), List.drop_zero, hmagic, hs]
      simp [hfound]
    | true =>
      by_cases hgranule : s.lastGranule = 0
      · refine Or.inl ⟨"no valid granule positions found", ?_⟩
        unfold analyzeOggOpus
        rw [if_neg hfour, slice_of_le (by omega) (by omega), List.drop_zero, hmagic, hs]
        simp [hfound, hgranule]
      · obtain ⟨waveform, hanswer, hlength⟩ := analyzeOggOpus_of_walk hmagic hs hfound hgranule
        exact Or.inr ⟨_, waveform, hanswer, durationOf_pos _ _, hlength⟩
  · refine Or.inl ⟨"not a valid Ogg file (missing OggS signature)", ?_⟩
    unfold analyzeOggOpus
    rw [if_neg hfour, slice_of_le (by omega) (by omega), List.drop_zero]
    simp [hmagic]

end WhatsAppMcp.Bridge.Media
