import DocSearch.Calendar.DayReader
import DocSearch.Proofs.Calendar.WrittenTime
import DocSearch.Proofs.Text.Runs

/-!
# Reading written days

A day is read as it was written, with dashes whatever its year (`Day.read?_iso`), and as one number
if its year has four places (`Day.read?_key`).

The reader tries the form with dashes first.  It refuses the one number, because behind the four
places of the year it finds a digit of the month where the dash should be
(`Day.readDashed?_keyChars`); this is where the number of places counts, since a longer year would
be read up to its fourth place.  There are no blanks to be trimmed in either form
(`Day.trim_keyChars`, `Day.trim_isoChars`).
-/

namespace DocSearch

namespace Day

open Calendar Text

variable {d : Day}

/-! ## What is written -/

/-- A year is written with digits and perhaps a sign. -/
theorem isDigit_or_sign_of_mem_yearText {c : Char} {year : Int} (h : c ∈ yearText year) :
    c.isDigit = true ∨ c = '-' ∨ c = '+' := by
  unfold yearText at h
  split at h
  · rcases List.mem_cons.mp h with rfl | h
    · exact .inr (.inl rfl)
    · exact .inl (isDigit_of_mem_padded h)
  · split at h
    · exact .inl (isDigit_of_mem_padded h)
    · rcases List.mem_cons.mp h with rfl | h
      · exact .inr (.inr rfl)
      · exact .inl (isDigit_of_mem_padded h)

/-- Digits and signs are not blank. -/
theorem not_blank_of_digit_or_sign {c : Char} (h : c.isDigit = true ∨ c = '-' ∨ c = '+') :
    isBlank c = false := by
  rcases h with h | rfl | rfl
  · exact isBlank_eq_false_of_isDigit h
  · rfl
  · rfl

/-- Nothing of a key is trimmed: its ends are digits or a sign. -/
theorem trim_keyChars (d : Day) : trim isBlank d.keyChars = d.keyChars := by
  refine trim_of_forall fun c hc => not_blank_of_digit_or_sign ?_
  rw [keyChars, List.mem_append, List.mem_append] at hc
  rcases hc with (hc | hc) | hc
  · exact isDigit_or_sign_of_mem_yearText hc
  · exact .inl (isDigit_of_mem_padded hc)
  · exact .inl (isDigit_of_mem_padded hc)

/-- Nothing of a day with dashes is trimmed. -/
theorem trim_isoChars (d : Day) : trim isBlank d.isoChars = d.isoChars := by
  refine trim_of_forall fun c hc => not_blank_of_digit_or_sign ?_
  rw [isoChars, List.mem_append, List.mem_append, List.mem_cons, List.mem_cons] at hc
  rcases hc with (hc | rfl | hc) | rfl | hc
  · exact isDigit_or_sign_of_mem_yearText hc
  · exact .inr (.inl rfl)
  · exact .inl (isDigit_of_mem_padded hc)
  · exact .inr (.inl rfl)
  · exact .inl (isDigit_of_mem_padded hc)

/-! ## The two forms -/

/-- The number of the day in its month is read at the end of a text. -/
theorem pair?_day (d : Day) : pair? (padded 2 d.day) = some (d.day, []) := by
  have hread := pair?_padded d.day_lt []
  rwa [List.append_nil] at hread

/-- The form with dashes is read as the day `d` that it was written of. -/
theorem readDashed?_isoChars (d : Day) : readDashed? d.isoChars = some d := by
  have hdash : NoDigitFirst ('-' :: (padded 2 d.month ++ '-' :: padded 2 d.day)) :=
    noDigitFirst_cons rfl
  rw [isoChars, List.append_assoc, List.cons_append, readDashed?, year?_yearText _ hdash]
  dsimp only [Option.bind_eq_bind]
  rw [Option.bind_some, after?_cons, Option.bind_some, pair?_padded d.month_lt, Option.bind_some,
    after?_cons, Option.bind_some, pair?_day, Option.bind_some, if_pos List.isEmpty_nil, of?_self]

section

variable (hplaces : d.HasFourPlaceYear)

include hplaces

/-- The year is read from a key, and the month and the day are left. -/
theorem year?_keyChars : year? d.keyChars = some (d.year, padded 2 d.month ++ padded 2 d.day) := by
  have hyear : (d.year.natAbs : Int) = d.year := by
    have hnonneg := hplaces.1
    omega
  rw [keyChars, List.append_assoc, yearText_eq hplaces, year?_padded (natAbs_year_lt hplaces),
    hyear]

/-- The form of one number is read as the day `d` that it was written of. -/
theorem readCompact?_keyChars : readCompact? d.keyChars = some d := by
  rw [readCompact?, year?_keyChars hplaces]
  dsimp only [Option.bind_eq_bind]
  rw [Option.bind_some, pair?_padded d.month_lt, Option.bind_some, pair?_day, Option.bind_some,
    if_pos List.isEmpty_nil, of?_self]

/-- One number is not taken for a day with dashes. -/
theorem readDashed?_keyChars : readDashed? d.keyChars = none := by
  have hafter : after? '-' (padded 2 d.month ++ padded 2 d.day) = none := by
    have hdigit := isDigit_lastDigit (d.month / Nat.pow 10 1)
    rw [padded_succ, List.cons_append]
    refine if_neg fun heq => ?_
    rw [heq] at hdigit
    cases hdigit
  rw [readDashed?, year?_keyChars hplaces]
  dsimp only [Option.bind_eq_bind]
  rw [Option.bind_some, hafter, Option.bind_none]

/-- A day is read from its `Day.key`. -/
theorem read?_key : read? d.key = some d := by
  rw [read?, toList_key, trim_keyChars, readDashed?_keyChars hplaces, Option.none_or,
    readCompact?_keyChars hplaces, Option.some_or]

end

/-- A day is read from its text with dashes, `Day.iso`. -/
theorem read?_iso (d : Day) : read? d.iso = some d := by
  rw [read?, toList_iso, trim_isoChars, readDashed?_isoChars, Option.some_or]

end Day

end DocSearch
