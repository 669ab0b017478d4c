import DocSearch.Calendar.Day
import DocSearch.Number.Binary64
import DocSearch.Json.Reader

/-!
# Scalars of TOML

The four kinds of quoted text (`text?`), and the bare words that stand for truth values, numbers,
dates and times.  A bare word is taken whole (`bare?`) and then read by `bareValue?`, in the order:
truth value, integer, number with a fraction, date or time.

Integers fit in 64 bits with a sign.  A number with a fraction or an exponent is kept as a decimal
and rounded only where it is used, but one that would be too large for the 64-bit format is refused
here. Of a date or a time the canonical text is kept.
-/

namespace DocSearch.Toml

open Text

/-- Whether `c` may stand in a comment or a text: no control character except a tab. -/
def isPlain (c : Char) : Bool := c = '\t' || (32 ≤ c.toNat && c.toNat ≠ 127)

/-- Blanks within a line. -/
def isGap (c : Char) : Bool := c = ' ' || c = '\t'

/-! ## Quoted texts -/

/-- The number of the hexadecimal digits `ds`. -/
def hexNumber? (ds : List Char) : Option Nat :=
  ds.foldlM (fun n d => (Json.hexValue? d).map (n * 16 + ·)) 0

/-- The character with the code point `n`, if it is one. -/
def scalar? (n : Nat) : Option Char := if n.isValidChar then some (Char.ofNat n) else none

/-- The character that an escape stands for, the backslash read already. -/
def escape? : List Char → Option (Char × List Char)
  | 'b' :: cs => some ('\x08', cs)
  | 't' :: cs => some ('\t', cs)
  | 'n' :: cs => some ('\n', cs)
  | 'f' :: cs => some ('\x0c', cs)
  | 'r' :: cs => some ('\r', cs)
  | '\x22' :: cs => some ('\x22', cs)
  | '\\' :: cs => some ('\\', cs)
  | 'u' :: cs =>
    if cs.length < 4 then none
    else ((hexNumber? (cs.take 4)).bind scalar?).map (·, cs.drop 4)
  | 'U' :: cs =>
    if cs.length < 8 then none
    else ((hexNumber? (cs.take 8)).bind scalar?).map (·, cs.drop 8)
  | _ => none

/-- A text in quotation marks, the opening one read already. -/
def basicText? : (fuel : Nat) → List Char → Option (List Char × List Char)
  | 0, _ => none
  | fuel + 1, cs =>
    match cs with
    | '\x22' :: cs => some ([], cs)
    | '\\' :: cs => do
      let (c, cs) ← escape? cs
      (basicText? fuel cs).map fun r => (c :: r.1, r.2)
    | c :: cs => if isPlain c then (basicText? fuel cs).map fun r => (c :: r.1, r.2) else none
    | [] => none

/-- A text in apostrophes, the opening one read already. -/
def literalText? : List Char → Option (List Char × List Char)
  | '\x27' :: cs => some ([], cs)
  | c :: cs => if isPlain c then (literalText? cs).map fun r => (c :: r.1, r.2) else none
  | [] => none

/-- How often `c` stands at the front of `cs`. -/
def countFront (c : Char) (cs : List Char) : Nat := (cs.takeWhile (· == c)).length

/-- What a line-ending backslash skips: blanks up to a line end, and all blanks and line ends behind
it. -/
def skipFolded? (cs : List Char) : Option (List Char) :=
  match cs.dropWhile isGap with
  | '\n' :: cs => some (cs.dropWhile fun c => isGap c || c = '\n')
  | _ => none

/-- A text of several lines in threefold quotation marks, the opening ones read already.  Up to two
more marks may stand before the closing three. -/
def basicLines? : (fuel : Nat) → List Char → Option (List Char × List Char)
  | 0, _ => none
  | fuel + 1, cs =>
    match cs with
    | '\x22' :: rest =>
      let n := countFront '\x22' cs
      if n < 3 then (basicLines? fuel rest).map fun r => ('\x22' :: r.1, r.2)
      else if n ≤ 5 then some (List.replicate (n - 3) '\x22', cs.drop n)
      else none
    | '\\' :: cs =>
      match skipFolded? cs with
      | some cs => basicLines? fuel cs
      | none => do
        let (c, cs) ← escape? cs
        (basicLines? fuel cs).map fun r => (c :: r.1, r.2)
    | c :: cs =>
      if isPlain c || c = '\n' then (basicLines? fuel cs).map fun r => (c :: r.1, r.2) else none
    | [] => none

/-- A text of several lines in threefold apostrophes, the opening ones read already. -/
def literalLines? : List Char → Option (List Char × List Char)
  | '\x27' :: cs =>
    let n := countFront '\x27' ('\x27' :: cs)
    if n < 3 then (literalLines? cs).map fun r => ('\x27' :: r.1, r.2)
    else if n ≤ 5 then some (List.replicate (n - 3) '\x27', ('\x27' :: cs).drop n)
    else none
  | c :: cs =>
    if isPlain c || c = '\n' then (literalLines? cs).map fun r => (c :: r.1, r.2) else none
  | [] => none

/-- A text of several lines without the line end right behind its opening marks. -/
def dropLineEnd : List Char → List Char
  | '\n' :: cs => cs
  | cs => cs

/-- A quoted text on one line, as it stands for a key. -/
def keyText? : List Char → Option (List Char × List Char)
  | '\x22' :: cs => basicText? (cs.length + 1) cs
  | '\x27' :: cs => literalText? cs
  | _ => none

/-- A quoted text of any kind. -/
def text? : List Char → Option (List Char × List Char)
  | '\x22' :: '\x22' :: '\x22' :: cs => basicLines? (cs.length + 1) (dropLineEnd cs)
  | '\x27' :: '\x27' :: '\x27' :: cs => literalLines? (dropLineEnd cs)
  | cs => keyText? cs

/-! ## Numbers -/

/-- The digits of a number in which single underscores may stand between two digits. -/
def grouped? (isDigit : Char → Bool) : List Char → Option (List Char)
  | [] => none
  | [c] => if isDigit c then some [c] else none
  | c :: '_' :: d :: cs => if isDigit c then (grouped? isDigit (d :: cs)).map (c :: ·) else none
  | c :: cs => if isDigit c then (grouped? isDigit cs).map (c :: ·) else none

/-- The digits of a whole part, which does not begin with a zero unless it is one. -/
def whole? (cs : List Char) : Option (List Char) := do
  let ds ← grouped? Char.isDigit cs
  if ds.head? == some '0' && 1 < ds.length then none else some ds

/-- Whether a word begins with a minus, and the word without its sign. -/
def signed : List Char → Bool × List Char
  | '-' :: cs => (true, cs)
  | '+' :: cs => (false, cs)
  | cs => (false, cs)

/-- The integer `n`, if it fits in 64 bits with a sign. -/
def bounded? (n : Int) : Option Value :=
  if -9223372036854775808 ≤ n ∧ n < 9223372036854775808 then some (.int n) else none

/-- A number in the given `base`, two, eight or sixteen. -/
def inBase? (base : Nat) (cs : List Char) : Option Value := do
  let ds ← grouped? (fun c => (Json.hexValue? c).any (· < base)) cs
  bounded? (ds.foldl (fun n d => n * base + (Json.hexValue? d).getD 0) 0 : Nat)

/-- An integer, in base ten or behind `0x`, `0o` or `0b`. -/
def integer? : List Char → Option Value
  | '0' :: 'x' :: cs => inBase? 16 cs
  | '0' :: 'o' :: cs => inBase? 8 cs
  | '0' :: 'b' :: cs => inBase? 2 cs
  | cs => do
    let (negative, cs) := signed cs
    let n := valueOf (← whole? cs)
    bounded? (if negative then -(n : Int) else n)

/-- An exponent, its letter read already. -/
def exponent? (cs : List Char) : Option Int := do
  let (negative, cs) := signed cs
  let n := valueOf (← grouped? Char.isDigit cs)
  pure (if negative then -(n : Int) else n)

/-- A number with a fraction or an exponent; one that is too large for the 64-bit format is
refused. -/
def float? (cs : List Char) : Option Value := do
  let (negative, cs) := signed cs
  if cs = "inf".toList then some (.decimal (.infinite negative))
  else if cs = "nan".toList then some (.decimal .notANumber)
  else
    let isMark := fun c => c = '.' || c = 'e' || c = 'E'
    let whole ← whole? (cs.takeWhile fun c => !isMark c)
    let (fraction, exponent) ← match cs.dropWhile fun c => !isMark c with
      | '.' :: cs => do
        let isLetter := fun c => c = 'e' || c = 'E'
        let fraction ← grouped? Char.isDigit (cs.takeWhile fun c => !isLetter c)
        match cs.dropWhile fun c => !isLetter c with
        | _ :: cs => pure (fraction, ← exponent? cs)
        | [] => pure (fraction, 0)
      | _ :: cs => pure ([], ← exponent? cs)
      | [] => none
    let digits := valueOf (whole ++ fraction)
    let scale := exponent - fraction.length
    let d := Decimal.finite negative digits scale
    if Binary64.ofDecimal d = .infinite false then none else some (.decimal d)

/-! ## Dates and times -/

/-- A date that exists, by its canonical text. -/
def date? (cs : List Char) : Option (List Char × List Char) := do
  let (year, cs) ← number? 4 4 cs
  let (month, cs) ← number? 2 2 (← after? '-' cs)
  let (day, cs) ← number? 2 2 (← after? '-' cs)
  let d ← Day.of? year month day
  pure (d.isoChars, cs)

/-- A time of day, by its canonical text. -/
def time? (cs : List Char) : Option (List Char × List Char) := do
  let (hour, cs) ← number? 2 2 cs
  let (minute, cs) ← number? 2 2 (← after? ':' cs)
  let (second, cs) ← number? 2 2 (← after? ':' cs)
  if 23 < hour ∨ 59 < minute ∨ 60 < second then none
  else
    let (fraction, cs) ← Json.fractionPart? cs
    let places := ((fraction.take 9).reverse.dropWhile (· == '0')).reverse
    pure (padded 2 hour ++ ':' :: padded 2 minute ++ ':' :: padded 2 second ++
      (if places.isEmpty then [] else '.' :: places), cs)

/-- An offset from UTC, by its canonical text, in which no offset is negative zero; it may be
missing. -/
def offset? : List Char → Option (List Char)
  | [] => some []
  | ['Z'] => some ['Z']
  | ['z'] => some ['Z']
  | sign :: cs => do
    let (hours, cs) ← number? 2 2 cs
    let (minutes, cs) ← number? 2 2 (← after? ':' cs)
    if (sign = '+' ∨ sign = '-') ∧ hours ≤ 23 ∧ minutes ≤ 59 ∧ cs.isEmpty then
      some ((if hours = 0 ∧ minutes = 0 then '+' else sign) :: padded 2 hours ++
        ':' :: padded 2 minutes)
    else none

/-- A date, a time, or both with or without an offset. -/
def dateTime? (cs : List Char) : Option Value :=
  match date? cs with
  | some (day, []) => some (.date (String.ofList day))
  | some (day, c :: cs) =>
    if c = 'T' ∨ c = 't' then do
      let (time, cs) ← time? cs
      let offset ← offset? cs
      pure (.date (String.ofList (day ++ 'T' :: time ++ offset)))
    else none
  | none => do
    let (time, cs) ← time? cs
    if cs.isEmpty then some (.date (String.ofList time)) else none

/-! ## Bare words -/

/-- The characters of bare words. -/
def isBare (c : Char) : Bool :=
  c.isAlphanum || c = '+' || c = '-' || c = '_' || c = '.' || c = ':'

/-- What the bare `word` stands for. -/
def bareValue? (word : List Char) : Option Value :=
  if word = "true".toList then some (.bool true)
  else if word = "false".toList then some (.bool false)
  else (integer? word).or ((dateTime? word).or (float? word))

/-- A value written as a bare word; a blank may divide a date from a time. -/
def bare? (cs : List Char) : Option (Value × List Char) :=
  let word := cs.takeWhile isBare
  let rest := cs.dropWhile isBare
  match date? word, rest with
  | some (_, []), ' ' :: d :: more =>
    if d.isDigit then
      (dateTime? (word ++ 'T' :: (d :: more).takeWhile isBare)).map
        (·, (d :: more).dropWhile isBare)
    else (bareValue? word).map (·, rest)
  | _, _ => (bareValue? word).map (·, rest)

end DocSearch.Toml
