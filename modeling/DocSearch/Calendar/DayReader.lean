import DocSearch.Calendar.Timestamp

/-!
# Reading a day

A day is written with dashes (`Day.readDashed?`), as one number (`Day.readCompact?`), or as the date
of a full timestamp (`Day.readTimestamp?`).  The three forms are tried in this order; blanks around
the text do not count.

A text can be of one form only, except that the numbers of `readCompact?` may be short: `2024031` is
the first of March.  The last form is read at its own offset: the day is the one that stands in the
text, whatever day that is in UTC.
-/

namespace DocSearch.Day

open Calendar Text

/-- A day written `2024-03-15`; month and day may have one digit, and blanks may stand before a
number. -/
def readDashed? (cs : List Char) : Option Day := do
  let (year, cs) ← year? cs
  let (month, cs) ← pair? (← after? '-' cs)
  let (day, cs) ← pair? (← after? '-' cs)
  if cs.isEmpty then of? year month day else none

/-- A day written `20240315`; here too month and day may have one digit. -/
def readCompact? (cs : List Char) : Option Day := do
  let (year, cs) ← year? cs
  let (month, cs) ← pair? cs
  let (day, cs) ← pair? cs
  if cs.isEmpty then of? year month day else none

/-- The day that a timestamp of the form `Rfc3339.read?` states, at its own offset. -/
def readTimestamp? (cs : List Char) : Option Day := (Rfc3339.read? cs).map (·.day)

/-- The day that the text `s` states, in the first of the three forms that fits. -/
def read? (s : String) : Option Day :=
  let cs := trim isBlank s.toList
  (readDashed? cs).or ((readCompact? cs).or (readTimestamp? cs))

example : (read? " 2024031 ").map iso = some "2024-03-01" := by decide +kernel

example : (read? "2024-12-31T23:59:59-12:00").map iso = some "2024-12-31" := by decide +kernel

example : (read? "2023-02-29") = none ∧ (read? "+20240301") = none := by decide +kernel

end DocSearch.Day
