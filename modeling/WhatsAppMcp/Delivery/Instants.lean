import WhatsAppMcp.Bridge.Notify.Client
import WhatsAppMcp.Bridge.Notify.Timestamps
import WhatsAppMcp.Controller.Intake.Payload

/-!
# The instants of a payload

Go writes an instant with `marshalTime`, and the controller reads the text with
`TimestampSchema` and `validTimestamp`.  The text always has the form of the schema.  Its
numbers are those of a date and a time that exist, so `validTimestamp` refuses it only for its
year: Go writes the year 0, and the controller does not read it.

* `afterPlaces_dateTime` and `afterFraction_fractionText`: the text has the form of the pattern.
* `numberAt_padded`: a number that is written at a place is read there.
* `validTimestamp_marshalTime` puts these together.
-/

namespace WhatsAppMcp.Delivery

open Calendar (Date ofDays padded padded_isDigit length_padded ofDigitChars_padded)
open Bridge (zeroTime)
open Bridge.Notify (marshalTime marshalsTime dateOf secondsOf nanosOf dateText clockText fractionText)
open Controller (Place afterPlaces afterFraction dateTimePlaces timestampSchema)
open Controller.Intake (numberAt leapYear daysInMonth validZone validTimestamp validTimestampChars)

/-! ## The form of the text -/

theorem afterPlaces_digits {digits rest : List Char} {places : List Place}
    (h : ∀ c ∈ digits, c.isDigit = true) :
    afterPlaces (List.replicate digits.length .digit ++ places) (digits ++ rest) =
      afterPlaces places rest := by
  induction digits with
  | nil => rfl
  | cons c digits ih =>
    show (if c.isDigit = true then _ else none) = _
    rw [if_pos (h c List.mem_cons_self)]
    exact ih fun c hc => h c (List.mem_cons_of_mem _ hc)

/-- A padded number fills as many places. -/
theorem afterPlaces_padded (width n : Nat) (rest : List Char) (places : List Place) :
    afterPlaces (List.replicate width .digit ++ places) (padded width n ++ rest) =
      afterPlaces places rest := by
  have hdigits : afterPlaces (List.replicate (padded width n).length .digit ++ places)
      (padded width n ++ rest) = afterPlaces places rest :=
    afterPlaces_digits fun c hc => padded_isDigit hc
  rwa [length_padded] at hdigits

theorem afterPlaces_among (c : Char) (rest : List Char) (places : List Place) :
    afterPlaces (.among [c] :: places) (c :: rest) = afterPlaces places rest := by
  show (if [c].contains c = true then _ else none) = _
  rw [if_pos (List.contains_iff_mem.mpr List.mem_cons_self)]

theorem afterPlaces_dateTime (d : Date) (seconds : Nat) (rest : List Char) :
    afterPlaces dateTimePlaces (dateText d ++ 'T' :: clockText seconds ++ rest) = some rest := by
  have hplaces : dateTimePlaces = List.replicate 4 .digit ++ (.among ['-'] :: (List.replicate 2 .digit ++
      (.among ['-'] :: (List.replicate 2 .digit ++ (.among ['T'] :: (List.replicate 2 .digit ++
        (.among [':'] :: (List.replicate 2 .digit ++ (.among [':'] :: (List.replicate 2 .digit ++
          [])))))))))) := rfl
  rw [hplaces]
  unfold dateText clockText
  simp only [List.append_assoc, List.cons_append, afterPlaces_padded, afterPlaces_among]
  rfl

/-- The fraction is made of digits, nine at most. -/
theorem fractionText_cases (nanos : Nat) : fractionText nanos = [] ∨ ∃ digits, fractionText nanos = '.' :: digits ∧
    1 ≤ digits.length ∧ digits.length ≤ 9 ∧ ∀ c ∈ digits, c.isDigit = true := by
  have hstart := List.rdropWhile_prefix (p := fun c => decide (c = '0')) (l := padded 9 nanos)
  unfold fractionText
  split
  · exact Or.inl rfl
  · next digits hne =>
    refine Or.inr ⟨_, rfl, ?_, ?_, fun c hc => padded_isDigit (hstart.subset hc)⟩
    · exact List.length_pos_of_ne_nil hne
    · have hlength := hstart.length_le
      rwa [length_padded] at hlength

theorem afterFraction_fractionText (nanos : Nat) : afterFraction (fractionText nanos ++ ['Z']) = ['Z'] := by
  rcases fractionText_cases nanos with hnone | ⟨digits, htext, hone, hnine, hdigits⟩
  · rw [hnone]
    rfl
  · rw [htext]
    have hz : ('Z' : Char).isDigit = false := by decide
    have htake : (digits ++ ['Z']).takeWhile Char.isDigit = digits := by
      rw [List.takeWhile_append_of_pos hdigits, List.takeWhile_cons_of_neg (by simp [hz]), List.append_nil]
    have hdrop : (digits ++ ['Z']).dropWhile Char.isDigit = ['Z'] := by
      rw [List.dropWhile_append_of_pos hdigits, List.dropWhile_cons_of_neg (by simp [hz])]
    show afterFraction ('.' :: (digits ++ ['Z'])) = ['Z']
    unfold afterFraction
    simp only [htake, hdrop]
    rw [if_pos ⟨hone, hnine⟩]

/-- What follows the date and the time is the zone. -/
theorem zone_marshalTime (t : Int) :
    (afterPlaces dateTimePlaces (marshalTime t).toList).map afterFraction = some ['Z'] := by
  unfold marshalTime
  rw [String.toList_ofList, List.append_assoc (_ ++ _), afterPlaces_dateTime, Option.map_some,
    afterFraction_fractionText]

theorem length_dateText (d : Date) : (dateText d).length = 10 := by
  simp [dateText]

theorem length_clockText (seconds : Nat) : (clockText seconds).length = 8 := by
  simp [clockText]

/-- The text of every instant has the form of the schema. -/
theorem timestampSchema_marshalTime (t : Int) : timestampSchema (marshalTime t) = true := by
  have hfraction : (fractionText (nanosOf t)).length ≤ 10 := by
    rcases fractionText_cases (nanosOf t) with hnone | ⟨digits, htext, -, hnine, -⟩
    · rw [hnone]
      simp
    · rw [htext, List.length_cons]
      omega
  have hlength : (marshalTime t).length ≤ 40 := by
    unfold marshalTime
    rw [String.length_ofList]
    simp only [List.length_append, List.length_cons, List.length_nil, length_dateText, length_clockText]
    omega
  unfold timestampSchema
  rw [zone_marshalTime]
  simp [hlength]

/-! ## The numbers of the text -/

theorem numberAt_padded {width n : Nat} (h : n < 10 ^ width) (before rest : List Char) :
    numberAt (before ++ (padded width n ++ rest)) before.length width = n := by
  unfold numberAt
  rw [List.drop_left]
  have htake : (padded width n ++ rest).take width = padded width n := by
    have hlength := length_padded width n
    exact List.take_left' hlength
  rw [htake, ofDigitChars_padded h]

/-- The numbers of a date and a time are read as they are written. -/
theorem numbers_dateTime {d : Date} {seconds : Nat} (hyear : d.year.toNat < 10000) (hmonth : d.month < 100)
    (hday : d.day < 100) (hseconds : seconds < 86400) (rest : List Char) :
    let text := dateText d ++ 'T' :: clockText seconds ++ rest
    numberAt text 0 4 = d.year.toNat ∧ numberAt text 5 2 = d.month ∧ numberAt text 8 2 = d.day ∧
      numberAt text 11 2 = seconds / 3600 ∧ numberAt text 14 2 = seconds / 60 % 60 ∧
      numberAt text 17 2 = seconds % 60 := by
  intro text
  have htext : text = padded 4 d.year.toNat ++ ('-' :: (padded 2 d.month ++ ('-' :: (padded 2 d.day ++
      ('T' :: (padded 2 (seconds / 3600) ++ (':' :: (padded 2 (seconds / 60 % 60) ++
        (':' :: (padded 2 (seconds % 60) ++ rest)))))))))) := by
    simp only [text, dateText, clockText, List.append_assoc, List.cons_append]
  have hat : ∀ {before after : List Char} {width n : Nat} (place : Nat),
      text = before ++ (padded width n ++ after) → before.length = place → n < 10 ^ width →
        numberAt text place width = n := by
    rintro before after width n place hsame rfl hn
    rw [hsame]
    exact numberAt_padded hn before after
  have hnext : ∀ {before field after : List Char} {c : Char}, text = before ++ (field ++ c :: after) →
      text = (before ++ field ++ [c]) ++ after := by
    rintro before field after c hsame
    rw [hsame]
    simp only [List.append_assoc, List.cons_append, List.nil_append]
  have h0 : text = [] ++ (padded 4 d.year.toNat ++ _) := htext
  have h5 := hnext h0
  have h8 := hnext h5
  have h11 := hnext h8
  have h14 := hnext h11
  have h17 := hnext h14
  exact ⟨hat 0 h0 rfl hyear, hat 5 h5 (by simp) hmonth, hat 8 h8 (by simp) hday,
    hat 11 h11 (by simp) (by omega), hat 14 h14 (by simp) (by omega), hat 17 h17 (by simp) (by omega)⟩

/-! ## The year -/

theorem isLeap_natCast (year : Nat) : Calendar.isLeap year = leapYear year := by
  rw [Bool.eq_iff_iff, Calendar.isLeap_iff]
  unfold leapYear
  simp only [Bool.and_eq_true, Bool.or_eq_true, decide_eq_true_eq]
  omega

/-- The years from 1 on begin with the first day. -/
theorem one_le_year_iff (days : Int) : 1 ≤ (ofDays days).year ↔ 0 ≤ days := by
  have hsum := Calendar.yearOfDays_sum days
  have hlt := Calendar.yearOfDays_lt days
  have hlong : (Calendar.yearOfDays days).2 < 366 := by
    rw [Calendar.sum_monthLengths] at hlt
    split at hlt
    · exact hlt
    · omega
  unfold Calendar.daysBeforeYear at hsum
  show 1 ≤ (Calendar.yearOfDays days).1 ↔ 0 ≤ days
  omega

/-- The years up to 9999 end with this day. -/
theorem year_lt_of_days {days : Int} (h : days < 3652059) : (ofDays days).year < 10000 := by
  have hsum := Calendar.yearOfDays_sum days
  unfold Calendar.daysBeforeYear at hsum
  show (Calendar.yearOfDays days).1 < 10000
  omega

/-- The controller reads the instants from the year 1 on. -/
theorem validTimestamp_marshalTime {t : Int} (h : marshalsTime t = true) :
    validTimestamp (marshalTime t) = true ↔ zeroTime ≤ t := by
  unfold marshalsTime at h
  simp only [Bool.and_eq_true, decide_eq_true_eq] at h
  have hyear : 1 ≤ (dateOf t).year ↔ zeroTime ≤ t := by
    unfold dateOf Bridge.Notify.epochDays zeroTime
    rw [one_le_year_iff]
    omega
  have hlast : (dateOf t).year < 10000 := by
    refine year_lt_of_days ?_
    unfold Bridge.Notify.epochDays
    omega
  have hseconds : secondsOf t < 86400 := by
    unfold secondsOf
    omega
  obtain ⟨hmonth, htwelve, hday, hdays⟩ : (dateOf t).Valid := Calendar.ofDays_valid _
  have hshort : (dateOf t).day ≤ 31 := by
    refine hdays.trans ?_
    generalize (dateOf t).month - 1 = i
    rcases i with _ | _ | _ | _ | _ | _ | _ | _ | _ | _ | _ | _ | i
    all_goals
      cases Calendar.isLeap (dateOf t).year
      all_goals simp [Calendar.monthLengths]
  have hnumbers := numbers_dateTime (d := dateOf t) (by omega) (by omega) (by omega) hseconds
    (fractionText (nanosOf t) ++ ['Z'])
  have htext : (marshalTime t).toList = dateText (dateOf t) ++ 'T' :: clockText (secondsOf t) ++
      (fractionText (nanosOf t) ++ ['Z']) := by
    unfold marshalTime
    rw [String.toList_ofList, List.append_assoc (_ ++ _)]
  unfold validTimestamp validTimestampChars
  rw [zone_marshalTime]
  dsimp only
  rw [htext]
  obtain ⟨h0, h5, h8, h11, h14, h17⟩ := hnumbers
  rw [h0, h5, h8, h11, h14, h17]
  rw [← hyear]
  simp only [decide_true, Bool.true_or, Bool.true_and, Bool.and_eq_true, decide_eq_true_eq]
  constructor
  · intro hvalid
    omega
  · intro hone
    have hleap : daysInMonth (dateOf t).year.toNat (dateOf t).month =
        (Calendar.monthLengths (Calendar.isLeap (dateOf t).year)).getD ((dateOf t).month - 1) 0 := by
      rw [← Int.toNat_of_nonneg (show 0 ≤ (dateOf t).year by omega), isLeap_natCast, Int.toNat_natCast]
      rfl
    rw [hleap]
    refine ⟨⟨⟨⟨⟨⟨⟨⟨?_, hmonth⟩, htwelve⟩, hday⟩, hdays⟩, ?_⟩, ?_⟩, ?_⟩, rfl⟩
    all_goals omega

end WhatsAppMcp.Delivery
