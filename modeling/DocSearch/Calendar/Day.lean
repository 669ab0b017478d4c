import DocSearch.Text.Digits

/-!
# Days of the Gregorian calendar

A `Day` is a date that exists, of the years -262143 to 262142: the three numbers together with the
fact that they are a date, so that there is no 30th of February to be ruled out later.

* The order of days is that of the calendar, and it is linear (`Day.lt_iff`, `Day.le_iff`).
* `Day.next?`, `Day.previous?` and `Day.monthBefore?` go to other days; the first and the last day
  there are have no neighbour on one side.
* `Day.key` writes a day so that, within the years 0 to 9999, the order of the texts is the order of
  the days; `Day.iso` puts dashes between the parts.  Years outside 0 to 9999 carry a sign in both.
-/

namespace DocSearch

namespace Calendar

/-- The first year there is, `-262143`. -/
def firstYear : Int := -262143

/-- The last year there is, `262142`. -/
def lastYear : Int := 262142

/-- Whether `year` has a 29th of February. -/
def isLeap (year : Int) : Bool := year % 4 == 0 && (year % 100 != 0 || year % 400 == 0)

/-- The number of days of `month`, which depends on `year` for February only. -/
def monthLength (year : Int) : (month : Nat) → Nat
  | 2 => if isLeap year then 29 else 28
  | 4 | 6 | 9 | 11 => 30
  | _ => 31

/-- Whether the three numbers are a date, of a year from `firstYear` to `lastYear`. -/
def isDate (year : Int) (month day : Nat) : Bool :=
  firstYear ≤ year && year ≤ lastYear && 1 ≤ month && month ≤ 12 && 1 ≤ day &&
    day ≤ monthLength year month

end Calendar

open Calendar

/-- A date that exists: `isDate` holds of its numbers. -/
structure Day where
  year : Int
  month : Nat
  day : Nat
  exists_date : isDate year month day = true
deriving DecidableEq

namespace Day

/-- The date of the three numbers, if they are one. -/
def of? (year : Int) (month day : Nat) : Option Day :=
  if h : isDate year month day = true then some ⟨year, month, day, h⟩ else none

/-- The numbers of a day make that day again, so `of?` loses none. -/
theorem of?_self (d : Day) : of? d.year d.month d.day = some d := by simp [of?, d.exists_date]

/-- Calendar order: by `year`, then `month`, then `day`. -/
def Before (a b : Day) : Prop :=
  a.year < b.year ∨ (a.year = b.year ∧
    (a.month < b.month ∨ (a.month = b.month ∧ a.day < b.day)))

instance : LT Day := ⟨Before⟩

instance : DecidableLT Day := fun a b => by unfold LT.lt instLT Before; exact inferInstance

instance : LE Day := ⟨fun a b => ¬ b < a⟩

instance : DecidableLE Day := fun a b => by unfold LE.le instLE; exact inferInstance

/-- The order of days, spelt out for `omega`. -/
theorem lt_iff {a b : Day} : a < b ↔ a.year < b.year ∨ (a.year = b.year ∧
    (a.month < b.month ∨ (a.month = b.month ∧ a.day < b.day))) := Iff.rfl

/-- No day is before `a` and after it, so `≤` is what `<` is not the other way round. -/
theorem le_iff {a b : Day} : a ≤ b ↔ ¬ b < a := Iff.rfl

instance : Std.IsLinearOrder Day where
  le_refl a := by
    simp only [le_iff, lt_iff]
    omega
  le_trans a b c := by
    simp only [le_iff, lt_iff]
    omega
  le_antisymm := by
    rintro ⟨y₁, m₁, d₁, h₁⟩ ⟨y₂, m₂, d₂, h₂⟩
    simp only [le_iff, lt_iff, Day.mk.injEq]
    omega
  le_total a b := by
    simp only [le_iff, lt_iff]
    omega

instance : Std.LawfulOrderLT Day where
  lt_iff a b := by
    simp only [le_iff, lt_iff]
    omega

/-- The following day; the last day there is has none. -/
def next? (d : Day) : Option Day :=
  if d.day < monthLength d.year d.month then of? d.year d.month (d.day + 1)
  else if d.month < 12 then of? d.year (d.month + 1) 1
  else of? (d.year + 1) 1 1

/-- The preceding day; the first day there is has none. -/
def previous? (d : Day) : Option Day :=
  if 1 < d.day then of? d.year d.month (d.day - 1)
  else if 1 < d.month then of? d.year (d.month - 1) (monthLength d.year (d.month - 1))
  else of? (d.year - 1) 12 31

/-- The same day of the preceding month, or the last day of that month if it is shorter:
`2024-02-29` for `2024-03-31`. -/
def monthBefore? (d : Day) : Option Day :=
  let year := if d.month = 1 then d.year - 1 else d.year
  let month := if d.month = 1 then 12 else d.month - 1
  of? year month (min d.day (monthLength year month))

/-! ## Writing -/

/-- The year with at least four places; outside `0` to `9999` with its sign. -/
def yearText (year : Int) : List Char :=
  if year < 0 then '-' :: Text.paddedAtLeast 4 year.natAbs
  else if year ≤ 9999 then Text.padded 4 year.natAbs
  else '+' :: Text.paddedAtLeast 4 year.natAbs

/-- Year, month and day joined by dashes, as `iso` writes them. -/
def isoChars (d : Day) : List Char :=
  yearText d.year ++ '-' :: Text.padded 2 d.month ++ '-' :: Text.padded 2 d.day

/-- Year, month and day without anything between them, as `key` writes them. -/
def keyChars (d : Day) : List Char :=
  yearText d.year ++ Text.padded 2 d.month ++ Text.padded 2 d.day

/-- The day as `2024-03-15`, which is how people write it. -/
def iso (d : Day) : String := String.ofList d.isoChars

/-- The day as `20240315`, which is how the index keeps it. -/
def key (d : Day) : String := String.ofList d.keyChars

/-- The characters of `Day.key`. -/
theorem toList_key (d : Day) : d.key.toList = d.keyChars := String.toList_ofList

/-- The characters of `Day.iso`. -/
theorem toList_iso (d : Day) : d.iso.toList = d.isoChars := String.toList_ofList

example : (of? 2024 3 15).map key = some "20240315" ∧
  (of? (-1) 1 1).map key = some "-00010101" := by
  decide +kernel

example : (of? 2023 2 29) = none ∧ ((of? 2024 3 31).bind monthBefore?) = of? 2024 2 29 := by decide

end Day

end DocSearch
