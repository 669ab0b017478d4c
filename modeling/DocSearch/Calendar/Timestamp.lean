import DocSearch.Calendar.Day
import DocSearch.Text.Blank

/-!
# Points in time

A `Timestamp` is a second of a day in UTC with a fraction in billionths.  A leap second is kept as
the last second of its minute with a fraction of one or more (`Calendar.isTime`).

Two readers are defined.  `Rfc3339.read?` accepts the fixed form `2024-03-15T09:00:00+01:00`.
`Timestamp.read?` is laxer: parts of a date may be short, a year may be long if it has a sign, and
blanks may stand around the parts.  Both need an offset from UTC, and both go through `LocalTime`,
the date and time as they were written; what is no time of day is refused there (`LocalTime.of?`),
what leaves the calendar on the way to UTC is refused by `LocalTime.timestamp?`.

`Timestamp.text` writes the form that ends in `Z`, `Timestamp.fixedText` the one that ends in
`+00:00`; both with 0, 3, 6 or 9 places of a fraction, the fewest that are exact.
-/

namespace DocSearch

namespace Calendar

/-- The billionths in a second. -/
def second : Nat := 1000000000

/-- Whether a second of a day and a fraction are a time: a fraction `nano` of one or more stands
only in the last second of a minute. -/
def isTime (secondOfDay nano : Nat) : Bool :=
  secondOfDay < 86400 && nano < 2 * second && (nano < second || secondOfDay % 60 == 59)

end Calendar

open Calendar

/-- A point in time, in UTC: a day and a time of day, for which `isTime` holds. -/
structure Timestamp where
  day : Day
  secondOfDay : Nat
  nano : Nat
  isTime_eq : isTime secondOfDay nano = true
deriving DecidableEq

/-- A date and time as written, with its `offset` from UTC in seconds. -/
structure LocalTime where
  day : Day
  secondOfDay : Nat
  nano : Nat
  offset : Int
deriving DecidableEq

namespace LocalTime

/-- The local time of the numbers read; a `second` of sixty is a leap second. -/
def of? (day : Day) (hour minute second nano : Nat) (offset : Int) : Option LocalTime :=
  if 23 < hour ∨ 59 < minute ∨ 60 < second then none
  else if second = 60 then some ⟨day, hour * 3600 + minute * 60 + 59,
    nano + Calendar.second, offset⟩
  else some ⟨day, hour * 3600 + minute * 60 + second, nano, offset⟩

/-- The day and second in UTC, if the day exists; the `offset` is less than a day. -/
def utc? (t : LocalTime) : Option (Day × Nat) :=
  let s : Int := t.secondOfDay - t.offset
  if s < 0 then t.day.previous?.map (·, (s + 86400).toNat)
  else if s < 86400 then some (t.day, s.toNat)
  else t.day.next?.map (·, (s - 86400).toNat)

/-- The point in time, if its day exists in UTC and its fraction may stand there. -/
def timestamp? (t : LocalTime) : Option Timestamp := do
  let (day, s) ← t.utc?
  if h : isTime s t.nano = true then some ⟨day, s, t.nano, h⟩ else none

end LocalTime

/-! ## Parts of a date and time -/

namespace Calendar

open Text

/-- A fraction of a second behind a point, in billionths; digits after the ninth do not count. -/
def fraction? : List Char → Option (Nat × List Char)
  | '.' :: cs =>
    let taken := takeDigits cs.length cs
    if taken.1.isEmpty then none
    else some (valueOf ((taken.1 ++ List.replicate 9 '0').take 9), taken.2)
  | cs => some (0, cs)

/-- The sign of an offset; a minus may be the one of typesetting, `'\u2212'`. -/
def sign? : List Char → Option (Int × List Char)
  | '+' :: cs => some (1, cs)
  | '-' :: cs => some (-1, cs)
  | '\u2212' :: cs => some (-1, cs)
  | _ => none

/-- An offset from UTC in seconds: `Z`, or signed hours and minutes with `between` skipping what
stands between them. -/
def offset? (between : List Char → Option (List Char)) : List Char → Option (Int × List Char)
  | 'Z' :: cs => some (0, cs)
  | 'z' :: cs => some (0, cs)
  | cs => do
    let (sign, cs) ← sign? cs
    let (hours, cs) ← number? 2 2 cs
    let (minutes, cs) ← number? 2 2 (← between cs)
    if 59 < minutes ∨ 23 < hours then none
    else some (sign * (hours * 3600 + minutes * 60 : Nat), cs)

/-- A year: four digits at most, or a sign and any number of digits. -/
def year? (cs : List Char) : Option (Int × List Char) :=
  match trimStart isBlank cs with
  | '-' :: cs => (number? 1 cs.length cs).map fun r => (-(r.1 : Int), r.2)
  | '+' :: cs => (number? 1 cs.length cs).map fun r => ((r.1 : Int), r.2)
  | cs => (number? 1 4 cs).map fun r => ((r.1 : Int), r.2)

/-- A number of one or two digits, blanks before it skipped. -/
def pair? (cs : List Char) : Option (Nat × List Char) := number? 1 2 (trimStart isBlank cs)

/-- What follows the mark `c`, blanks before it skipped. -/
def mark? (c : Char) (cs : List Char) : Option (List Char) := after? c (trimStart isBlank cs)

end Calendar

/-! ## The fixed form -/

namespace Rfc3339

open Text

/-- The local time that a text of the fixed form states. -/
def read? (cs : List Char) : Option LocalTime := do
  let (year, cs) ← number? 4 4 cs
  let (month, cs) ← number? 2 2 (← after? '-' cs)
  let (day, cs) ← number? 2 2 (← after? '-' cs)
  let cs ← match cs with
    | c :: cs => if c = 'T' ∨ c = 't' ∨ c = ' ' then some cs else none
    | [] => none
  let (hour, cs) ← number? 2 2 cs
  let (minute, cs) ← number? 2 2 (← after? ':' cs)
  let (second, cs) ← number? 2 2 (← after? ':' cs)
  let (nano, cs) ← fraction? cs
  let (offset, cs) ← offset? (after? ':') cs
  if cs.isEmpty then LocalTime.of? (← Day.of? year month day) hour minute second nano offset
  else none

end Rfc3339

/-! ## The lax form -/

namespace Timestamp

open Text

/-- What may stand between the hours and minutes of an offset in the lax form: colons and blanks. -/
def skipColons (cs : List Char) : List Char := trimStart (fun c => c == ':' || isBlank c) cs

/-- An offset, or the letters `UTC` in any case. -/
def laxOffset? (cs : List Char) : Option (Int × List Char) :=
  if (cs.take 3).map Char.toUpper = ['U', 'T', 'C'] then some (0, cs.drop 3)
  else offset? (some ∘ skipColons) cs

/-- The local time that a text of the lax form states. -/
def readLocal? (cs : List Char) : Option LocalTime := do
  let (year, cs) ← year? cs
  let (month, cs) ← pair? (← mark? '-' cs)
  let (day, cs) ← pair? (← mark? '-' cs)
  let cs ← match cs with
    | c :: cs => if c = 'T' ∨ c = 't' ∨ c = ' ' then some cs else none
    | [] => none
  let (hour, cs) ← pair? cs
  let (minute, cs) ← pair? (← mark? ':' cs)
  let (second, cs) ← pair? (← mark? ':' cs)
  let (nano, cs) ← fraction? cs
  let (offset, cs) ← laxOffset? (trimStart isBlank cs)
  if (trimStart isBlank cs).isEmpty then
    LocalTime.of? (← Day.of? year month day) hour minute second nano offset
  else none

/-- The point in time that the text `s` states, in the lax form. -/
def read? (s : String) : Option Timestamp := (readLocal? s.toList).bind LocalTime.timestamp?

/-- The point in time that the text `s` states, if it has the fixed form. -/
def readFixed? (s : String) : Option Timestamp := (Rfc3339.read? s.toList).bind LocalTime.timestamp?

/-! ## Writing -/

/-- A fraction in billionths, with the fewest of 0, 3, 6 or 9 places that are exact; nothing for
`0`. -/
def fractionText (nano : Nat) : List Char :=
  if nano = 0 then []
  else if nano % 1000000 = 0 then '.' :: padded 3 (nano / 1000000)
  else if nano % 1000 = 0 then '.' :: padded 6 (nano / 1000)
  else '.' :: padded 9 nano

/-- The time of day; a leap second is written as a sixtieth second. -/
def timeText (t : Timestamp) : List Char :=
  let leap := if t.nano < second then 0 else 1
  padded 2 (t.secondOfDay / 3600) ++ ':' :: padded 2 (t.secondOfDay / 60 % 60) ++
    ':' :: padded 2 (t.secondOfDay % 60 + leap) ++ fractionText (t.nano - leap * second)

/-- Day and time, without an offset, as `text` and `fixedText` begin. -/
def textChars (t : Timestamp) : List Char := t.day.isoChars ++ 'T' :: t.timeText

/-- The point in time as `2024-03-15T09:00:00Z`. -/
def text (t : Timestamp) : String := String.ofList (t.textChars ++ ['Z'])

/-- The point in time as `2024-03-15T09:00:00+00:00`, the form in which times are stored. -/
def fixedText (t : Timestamp) : String := String.ofList (t.textChars ++ "+00:00".toList)

/-- The start of the year `1970`. -/
def epoch : Timestamp := ⟨⟨1970, 1, 1, by decide⟩, 0, 0, by decide⟩

example : (read? "2024-03-15T23:30:00.5-02:00").map text = some "2024-03-16T01:30:00.500Z" := by
  decide +kernel

example : (read? "2023-12-31T23:59:60Z").map text = some "2023-12-31T23:59:60Z" := by decide +kernel

example : (read? " +12024-3-5 9:00:00 +0530").map text = some "+12024-03-05T03:30:00Z" := by
  decide +kernel

end Timestamp

end DocSearch
