import DocSearch.Proofs.Text.Numbers

/-!
# Reading written times

Every point in time is read as it was written, whatever its year, its fraction and whether it is a
leap second (`Timestamp.read?_text`).  The fixed form has room for four places of a year only, and a
time of these years is read from it (`Timestamp.readFixed?_fixedText`).

Both go through the parts of the text: each reader takes one part off the front and leaves what was
written behind it.  The parts that need care are a year, which may be of any length behind a sign
(`Calendar.year?_yearText`), and a fraction, whose missing places count as zeros
(`Calendar.fraction?_fractionText`).  A time of day is taken by its numbers
(`Timestamp.readLocal?_parts`), and last these are shown to make the time again
(`Timestamp.localTime_of?_written`); a leap second goes to second sixty and comes back.
-/

namespace DocSearch

namespace Calendar

open Text

/-! ## Numbers with blanks before them -/

/-- Digits are not blank. -/
theorem isBlank_eq_false_of_isDigit {c : Char} (h : c.isDigit = true) : isBlank c = false := by
  have hdigits : ∀ n < 58, 48 ≤ n → inRanges n blankRanges = false := by decide
  simp only [Char.isDigit, Bool.and_eq_true, decide_eq_true_eq, ge_iff_le,
    UInt32.le_iff_toNat_le] at h
  exact hdigits c.toNat (Nat.lt_succ_of_le h.2) h.1

/-- No blanks are trimmed in front of a character that is none. -/
theorem trimStart_cons_of_not_blank {c : Char} (h : isBlank c = false) (cs : List Char) :
    trimStart isBlank (c :: cs) = c :: cs := List.dropWhile_cons_of_neg (by simp [h])

/-- No blanks are trimmed in front of a number. -/
theorem trimStart_padded (width n : Nat) (rest : List Char) :
    trimStart isBlank (padded (width + 1) n ++ rest) = padded (width + 1) n ++ rest := by
  rw [padded_succ, List.cons_append]
  exact trimStart_cons_of_not_blank (isBlank_eq_false_of_isDigit (isDigit_lastDigit _)) _

/-- A number of two places is read by `pair?`. -/
theorem pair?_padded {n : Nat} (hn : n < Nat.pow 10 2) (rest : List Char) :
    pair? (padded 2 n ++ rest) = some (n, rest) := by
  rw [pair?, trimStart_padded]
  exact number?_padded hn (by decide) rest

/-- A mark at the front is read by `mark?`. -/
theorem mark?_cons {c : Char} (h : isBlank c = false) (cs : List Char) :
    mark? c (c :: cs) = some cs := by
  rw [mark?, trimStart_cons_of_not_blank h, after?_cons]

/-! ## Years -/

/-- A year behind a sign has as many places as it needs. -/
theorem number?_signed (n : Nat) {rest : List Char} (hrest : NoDigitFirst rest) :
    number? 1 (paddedAtLeast 4 n ++ rest).length (paddedAtLeast 4 n ++ rest) = some (n, rest) :=
  number?_paddedAtLeast (by simp) hrest

/-- A year of four places is read whatever follows, also if that is a digit. -/
theorem year?_padded {n : Nat} (hn : n < Nat.pow 10 4) (rest : List Char) :
    year? (padded 4 n ++ rest) = some ((n : Int), rest) := by
  have hnumber : number? 1 4 (padded 4 n ++ rest) = some (n, rest) :=
    number?_padded hn (by decide) rest
  have hdigit := isDigit_lastDigit (n / Nat.pow 10 3)
  rw [year?, trimStart_padded]
  rw [padded_succ, List.cons_append] at hnumber ⊢
  -- The first place is a digit and no sign.
  split
  · rename_i heq
    rw [(List.cons.inj heq).1] at hdigit
    cases hdigit
  · rename_i heq
    rw [(List.cons.inj heq).1] at hdigit
    cases hdigit
  · rw [hnumber, Option.map_some]

/-- A `year` is read as it was written, with its sign if it needs one. -/
theorem year?_yearText (year : Int) {rest : List Char} (hrest : NoDigitFirst rest) :
    year? (Day.yearText year ++ rest) = some (year, rest) := by
  unfold Day.yearText
  split
  · have habs : -(year.natAbs : Int) = year := by omega
    rw [List.cons_append, year?, trimStart_cons_of_not_blank rfl]
    simp only [number?_signed _ hrest, Option.map_some, habs]
  · split
    · have hbound : year.natAbs < Nat.pow 10 4 := by
        change year.natAbs < 10000
        omega
      have habs : (year.natAbs : Int) = year := by omega
      rw [year?_padded hbound, habs]
    · have habs : (year.natAbs : Int) = year := by omega
      rw [List.cons_append, year?, trimStart_cons_of_not_blank rfl]
      simp only [number?_signed _ hrest, Option.map_some, habs]

/-! ## Fractions -/

/-- A zero behind the digits `ds` counts them ten times. -/
theorem valueOf_append_zeros (ds : List Char) :
    ∀ k, valueOf (ds ++ List.replicate k '0') = valueOf ds * Nat.pow 10 k
  | 0 => by
    rw [List.replicate_zero, List.append_nil]
    exact (Nat.mul_one _).symm
  | k + 1 => by
    have hpow : Nat.pow 10 (k + 1) = Nat.pow 10 k * 10 := rfl
    have hzero : digitValue '0' = 0 := rfl
    rw [List.replicate_succ', ← List.append_assoc, valueOf_append_singleton,
      valueOf_append_zeros ds k, hpow, hzero, Nat.add_zero, Nat.mul_assoc]

/-- The places behind a point count for as many billionths as the nine places do that zeros make of
them. -/
theorem fraction?_places {width k n : Nat} (hwidth : width + 1 + k = 9)
    (hn : n < Nat.pow 10 (width + 1))
    {rest : List Char} (hrest : NoDigitFirst rest) :
    fraction? ('.' :: (padded (width + 1) n ++ rest)) = some (n * Nat.pow 10 k, rest) := by
  have hdigits : ∀ c ∈ padded (width + 1) n, c.isDigit = true := fun _ => isDigit_of_mem_padded
  have hlength := length_padded (width + 1) n
  have htaken : takeDigits (padded (width + 1) n ++ rest).length (padded (width + 1) n ++ rest) =
      (padded (width + 1) n, rest) :=
    takeDigits_append hdigits (by simp) (.inr hrest)
  have hfilled : (padded (width + 1) n ++ List.replicate 9 '0').take 9 =
      padded (width + 1) n ++ List.replicate k '0' := by
    have hall : (padded (width + 1) n).take 9 = padded (width + 1) n :=
      List.take_of_length_le (by omega)
    have hzeros : min (9 - (width + 1)) 9 = k := by omega
    rw [List.take_append, List.take_replicate, hlength, hall, hzeros]
  have hsome : (padded (width + 1) n).isEmpty = false := by
    rw [padded_succ]
    rfl
  rw [fraction?, htaken]
  simp only [hsome, hfilled, valueOf_append_zeros, valueOf_padded hn, Bool.false_eq_true, if_false]

/-- A fraction is read as it was written, with the places that it needs. -/
theorem fraction?_fractionText {nano : Nat} (hnano : nano < second) {rest : List Char}
    (hrest : NoDigitFirst rest) (hpoint : rest.head? ≠ some '.') :
    fraction? (Timestamp.fractionText nano ++ rest) = some (nano, rest) := by
  have hbound : nano < 1000000000 := hnano
  unfold Timestamp.fractionText
  split
  · rename_i hzero
    -- Nothing is written for a whole second, and no point follows.
    rw [List.nil_append, fraction?, hzero]
    rintro cs rfl
    exact hpoint rfl
  · split
    -- The rest are three, six or nine places, as many as are needed.
    · have hplaces : nano / 1000000 < Nat.pow 10 3 := by
        change nano / 1000000 < 1000
        omega
      have hwhole : nano / 1000000 * Nat.pow 10 6 = nano := by
        change nano / 1000000 * 1000000 = nano
        omega
      rw [List.cons_append, fraction?_places (k := 6) rfl hplaces hrest, hwhole]
    · split
      · have hplaces : nano / 1000 < Nat.pow 10 6 := by
          change nano / 1000 < 1000000
          omega
        have hwhole : nano / 1000 * Nat.pow 10 3 = nano := by
          change nano / 1000 * 1000 = nano
          omega
        rw [List.cons_append, fraction?_places (k := 3) rfl hplaces hrest, hwhole]
      · rw [List.cons_append, fraction?_places (k := 0) rfl hbound hrest]
        exact congrArg (fun n => some (n, rest)) (Nat.mul_one nano)

end Calendar

namespace Timestamp

open Text Calendar

/-! ## Parts of a text -/

/-- A time of day as it is written, the parts by their numbers. -/
def clockText (hour minute second nano : Nat) : List Char :=
  padded 2 hour ++ ':' :: padded 2 minute ++ ':' :: padded 2 second ++ fractionText nano

section Parts

variable {day : Day} {hour minute sec nano : Nat} (hhour : hour < Nat.pow 10 2)
  (hminute : minute < Nat.pow 10 2)
  (hsec : sec < Nat.pow 10 2) (hnano : nano < second)

include hhour hminute hsec hnano

/-- What is written of a day and a time of day in UTC is read as their numbers, by the lax
reader. -/
theorem readLocal?_parts :
    readLocal? (day.isoChars ++ 'T' :: clockText hour minute sec nano ++ ['Z']) =
      LocalTime.of? day hour minute sec nano 0 := by
  have hdash : NoDigitFirst ('-' :: (padded 2 day.month ++ '-' :: (padded 2 day.day ++ 'T' ::
      (clockText hour minute sec nano ++ ['Z'])))) := noDigitFirst_cons rfl
  have hfraction : fraction? (Timestamp.fractionText nano ++ ['Z']) = some (nano, ['Z']) :=
    fraction?_fractionText hnano (noDigitFirst_cons rfl) (by decide)
  have hoffset : laxOffset? (trimStart isBlank ['Z']) = some (0, []) := rfl
  have hend : (trimStart isBlank []).isEmpty = true := rfl
  simp only [Day.isoChars, List.append_assoc, List.cons_append]
  rw [readLocal?, year?_yearText _ hdash]
  dsimp only [Option.bind_eq_bind]
  -- The day, up to the mark behind it.
  rw [Option.bind_some, mark?_cons rfl, Option.bind_some, pair?_padded day.month_lt,
    Option.bind_some, mark?_cons rfl, Option.bind_some, pair?_padded day.day_lt, Option.bind_some]
  dsimp only
  rw [if_pos (.inl rfl), Option.bind_some, clockText]
  simp only [List.append_assoc, List.cons_append]
  -- The time of day, and the offset.
  rw [pair?_padded hhour, Option.bind_some, mark?_cons rfl, Option.bind_some, pair?_padded hminute,
    Option.bind_some, mark?_cons rfl, Option.bind_some, pair?_padded hsec, Option.bind_some,
    hfraction, Option.bind_some, hoffset, Option.bind_some, if_pos hend, Day.of?_self,
    Option.bind_some]

/-- So it is in the fixed form, if the year has four places. -/
theorem readFixedLocal?_parts (hday : day.HasFourPlaceYear) :
    Rfc3339.read? (day.isoChars ++ 'T' :: clockText hour minute sec nano ++ "+00:00".toList) =
      LocalTime.of? day hour minute sec nano 0 := by
  have hyear : (day.year.natAbs : Int) = day.year := by
    have hnonneg := hday.1
    omega
  have hfraction :
      fraction? (Timestamp.fractionText nano ++ "+00:00".toList) = some (nano, "+00:00".toList) :=
    fraction?_fractionText hnano (noDigitFirst_cons rfl) (by decide)
  have hoffset : offset? (after? ':') "+00:00".toList = some (0, []) := rfl
  simp only [Day.isoChars, List.append_assoc, List.cons_append, Day.yearText_eq hday]
  rw [Rfc3339.read?, number?_padded (Day.natAbs_year_lt hday) (Nat.le_refl 4)]
  dsimp only [Option.bind_eq_bind]
  rw [Option.bind_some, after?_cons, Option.bind_some, number?_padded day.month_lt (Nat.le_refl 2),
    Option.bind_some, after?_cons, Option.bind_some, number?_padded day.day_lt (Nat.le_refl 2),
    Option.bind_some]
  dsimp only
  rw [if_pos (.inl rfl), Option.bind_some, clockText]
  simp only [List.append_assoc, List.cons_append]
  rw [number?_padded hhour (Nat.le_refl 2), Option.bind_some, after?_cons, Option.bind_some,
    number?_padded hminute (Nat.le_refl 2), Option.bind_some, after?_cons, Option.bind_some,
    number?_padded hsec (Nat.le_refl 2), Option.bind_some, hfraction, Option.bind_some, hoffset,
    Option.bind_some, if_pos List.isEmpty_nil, hyear, Day.of?_self, Option.bind_some]

end Parts

/-! ## Whole texts -/

/-- The point in time `t` as a local time of the offset zero. -/
def toLocal (t : Timestamp) : LocalTime := ⟨t.day, t.secondOfDay, t.nano, 0⟩

/-- The second that is written beyond the last one of its minute, for a leap second. -/
def leap (t : Timestamp) : Nat := if t.nano < second then 0 else 1

variable (t : Timestamp)

/-- The bounds of a time of day, from the `Calendar.isTime` that it carries. -/
theorem isTime_bounds : t.secondOfDay < 86400 ∧ t.nano < 2 * second ∧
    (t.nano < second ∨ t.secondOfDay % 60 = 59) := by
  simpa [isTime, and_assoc] using t.isTime_eq

/-- At the offset zero a local time is the point in time itself. -/
theorem timestamp?_toLocal : t.toLocal.timestamp? = some t := by
  have hbound := t.isTime_bounds.1
  have hutc : t.toLocal.utc? = some (t.day, t.secondOfDay) := by
    simp only [toLocal, LocalTime.utc?, Int.sub_zero]
    rw [if_neg (by omega), if_pos (by omega), Int.toNat_natCast]
  rw [LocalTime.timestamp?, hutc]
  exact dif_pos t.isTime_eq

/-- The time of day is written by `clockText`, with its numbers in the places. -/
theorem timeText_eq : t.timeText = clockText (t.secondOfDay / 3600) (t.secondOfDay / 60 % 60)
    (t.secondOfDay % 60 + t.leap) (t.nano - t.leap * second) := rfl

theorem hour_lt : t.secondOfDay / 3600 < Nat.pow 10 2 := by
  have hbound := t.isTime_bounds.1
  change _ < 100
  omega

theorem minute_lt : t.secondOfDay / 60 % 60 < Nat.pow 10 2 := by
  change _ < 100
  omega

/-- A second has two places, the `leap` one included. -/
theorem second_lt : t.secondOfDay % 60 + t.leap < Nat.pow 10 2 := by
  change _ < 100
  unfold leap
  split <;> omega

/-- A fraction is less than a second, once the `leap` second is taken off. -/
theorem nano_sub_leap_lt : t.nano - t.leap * second < second := by
  have hbound := t.isTime_bounds.2.1
  unfold leap
  split <;> omega

/-- The numbers that are written of a time of day make that time. -/
theorem localTime_of?_written :
    LocalTime.of? t.day (t.secondOfDay / 3600) (t.secondOfDay / 60 % 60)
      (t.secondOfDay % 60 + t.leap)
      (t.nano - t.leap * second) 0 = some t.toLocal := by
  obtain ⟨hsecond, hnano, hleap⟩ := t.isTime_bounds
  unfold LocalTime.of? leap toLocal
  by_cases h : t.nano < second
  · have hwhole : t.secondOfDay / 3600 * 3600 + t.secondOfDay / 60 % 60 * 60 + t.secondOfDay % 60 =
        t.secondOfDay := by omega
    rw [if_pos h, if_neg (by omega), if_neg (by omega), Nat.add_zero, Nat.zero_mul, Nat.sub_zero,
      hwhole]
  · have hlast : t.secondOfDay % 60 = 59 := hleap.resolve_left h
    have hwhole :
        t.secondOfDay / 3600 * 3600 + t.secondOfDay / 60 % 60 * 60 + 59 = t.secondOfDay := by omega
    have hfraction : t.nano - 1 * second + second = t.nano := by omega
    rw [if_neg h, if_neg (by omega), if_pos (by omega), hwhole, hfraction]

/-- Every point in time `t` is read as it was written. -/
theorem read?_text : read? t.text = some t := by
  have hlocal : readLocal? (t.textChars ++ ['Z']) = some t.toLocal := by
    rw [textChars, timeText_eq,
      readLocal?_parts t.hour_lt t.minute_lt t.second_lt t.nano_sub_leap_lt, localTime_of?_written]
  rw [read?, text, String.toList_ofList, hlocal, Option.bind_some, timestamp?_toLocal]

/-- A point in time whose year has four places is read from the fixed form as it was written. -/
theorem readFixed?_fixedText (h : t.day.HasFourPlaceYear) : readFixed? t.fixedText = some t := by
  have hlocal : Rfc3339.read? (t.textChars ++ "+00:00".toList) = some t.toLocal := by
    rw [textChars, timeText_eq,
      readFixedLocal?_parts t.hour_lt t.minute_lt t.second_lt t.nano_sub_leap_lt h,
      localTime_of?_written]
  rw [readFixed?, fixedText, String.toList_ofList, hlocal, Option.bind_some, timestamp?_toLocal]

end Timestamp

end DocSearch
