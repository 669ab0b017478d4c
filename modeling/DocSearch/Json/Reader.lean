import DocSearch.Data.Value
import DocSearch.Text.Digits

/-!
# Reading JSON

`Json.read?` accepts exactly one value with blanks around it.  It is strict: no trailing comma, no
control character inside a text, no leading zero.  A text with an escape that is half of a surrogate
pair is well-formed, but no text; it and a table with such a name are `Value.undecodable`.

Each reader takes characters and gives what it read with those behind it, or `none`.  Values nest,
so `Json.value?`, `Json.items?`, `Json.field?` and `Json.fields?` call each other; their `fuel`
bounds the number of values and separators, and twice the length of the text and one more is enough
(`Json.readChars?`).
-/

namespace DocSearch.Json

open Text

/-- Blanks between the parts of a JSON text. -/
def isSpace (c : Char) : Bool := c = ' ' || c = '\n' || c = '\r' || c = '\t'

/-- What follows the blanks at the front of `cs`. -/
def skip (cs : List Char) : List Char := cs.dropWhile isSpace

/-- The value of the hexadecimal digit `c`. -/
def hexValue? (c : Char) : Option Nat :=
  if '0' ≤ c ∧ c ≤ '9' then some (c.toNat - 48)
  else if 'a' ≤ c ∧ c ≤ 'f' then some (c.toNat - 87)
  else if 'A' ≤ c ∧ c ≤ 'F' then some (c.toNat - 55)
  else none

/-- The number of four hexadecimal digits, as they stand behind `\u`. -/
def hexValue4? (a b c d : Char) : Option Nat := do
  pure ((((← hexValue? a) * 16 + (← hexValue? b)) * 16 + (← hexValue? c)) * 16 + (← hexValue? d))

/-- Whether the 16-bit unit `n` is the first half of a pair. -/
def isHighHalf (n : Nat) : Bool := 0xD800 ≤ n && n < 0xDC00

/-- Whether the 16-bit unit `n` is the second half of a pair. -/
def isLowHalf (n : Nat) : Bool := 0xDC00 ≤ n && n < 0xE000

/-- The character that a letter behind a backslash stands for. -/
def letterEscape? : Char → Option Char
  | '\x22' => some '\x22'
  | '\\' => some '\\'
  | '/' => some '/'
  | 'b' => some '\x08'
  | 'f' => some '\x0c'
  | 'n' => some '\n'
  | 'r' => some '\r'
  | 't' => some '\t'
  | _ => none

/-- What is read of a text with the character `c` before it, or with half of a pair, which takes its
characters away. -/
def withChar (c : Option Char) (r : Option (List Char) × List Char) :
    Option (List Char) × List Char :=
  (c.bind fun c => r.1.map (c :: ·), r.2)

/-- The characters of a text up to its closing quote, the opening one read already, and what
follows.  A text with half of a surrogate pair has no characters. -/
def textChars? : List Char → Option (Option (List Char) × List Char)
  | [] => none
  | '\x22' :: cs => some (some [], cs)
  | '\\' :: 'u' :: a :: b :: c :: d :: cs => do
    let unit ← hexValue4? a b c d
    if isHighHalf unit then
      match cs with
      | '\\' :: 'u' :: a :: b :: c :: d :: cs =>
        let low ← hexValue4? a b c d
        let whole := Char.ofNat (0x10000 + (unit - 0xD800) * 0x400 + (low - 0xDC00))
        (textChars? cs).map (withChar (if isLowHalf low then some whole else none))
      | cs => (textChars? cs).map (withChar none)
    else (textChars? cs).map (withChar (if isLowHalf unit then none else some (Char.ofNat unit)))
  | '\\' :: e :: cs => do
    let c ← letterEscape? e
    (textChars? cs).map (withChar (some c))
  | c :: cs =>
    if c.toNat < 32 ∨ c = '\\' then none
    else (textChars? cs).map (withChar (some c))

/-- The value of the characters of a text, `Value.undecodable` if it has none. -/
def textValue : Option (List Char) → Value
  | some cs => .text (String.ofList cs)
  | none => .undecodable

/-- The value of a table with `fields`, all of whose names must be texts. -/
def tableValue (fields : List (Option (List Char) × Value)) : Value :=
  match fields.mapM fun f => f.1.map fun name => (String.ofList name, f.2) with
  | some fields => .table fields
  | none => .undecodable

/-- The digits of a whole part: a zero alone, or digits that do not begin with one. -/
def wholePart? (cs : List Char) : Option (List Char × List Char) :=
  match cs with
  | '0' :: cs => some (['0'], cs)
  | cs =>
    let taken := takeDigits cs.length cs
    if taken.1.isEmpty then none else some taken

/-- The digits behind a point, if there is one. -/
def fractionPart? : List Char → Option (List Char × List Char)
  | '.' :: cs =>
    let taken := takeDigits cs.length cs
    if taken.1.isEmpty then none else some taken
  | cs => some ([], cs)

/-- The exponent behind a letter `e` or `E`, if there is one. -/
def exponentPart? : List Char → Option (Option Int × List Char)
  | c :: cs =>
    if c = 'e' ∨ c = 'E' then
      match cs with
      | '-' :: cs => (number? 1 cs.length cs).map fun r => (some (-(r.1 : Int)), r.2)
      | '+' :: cs => (number? 1 cs.length cs).map fun r => (some (r.1 : Int), r.2)
      | cs => (number? 1 cs.length cs).map fun r => (some (r.1 : Int), r.2)
    else some (none, c :: cs)
  | [] => some (none, [])

/-- A number.  Without a fraction and an exponent it is an integer, save for `-0`. -/
def numberValue? (cs : List Char) : Option (Value × List Char) := do
  let negative := cs.head? == some '-'
  let (whole, cs) ← wholePart? (if negative then cs.tail else cs)
  let (fraction, cs) ← fractionPart? cs
  let (exponent, cs) ← exponentPart? cs
  let n := valueOf whole
  if fraction.isEmpty && exponent.isNone && !(negative && n == 0) then
    pure (.int (if negative then -(n : Int) else n), cs)
  else
    pure (.decimal (.finite negative (valueOf (whole ++ fraction))
      (exponent.getD 0 - fraction.length)), cs)

/-- The value `v` that `word` stands for, if it stands at the front of `cs`. -/
def word? (word : String) (v : Value) (cs : List Char) : Option (Value × List Char) :=
  if word.toList.isPrefixOf cs then some (v, cs.drop word.length) else none

mutual

/-- A value, blanks before it skipped, and what follows.  `fuel` bounds the number of values and of
separators read. -/
def value? : (fuel : Nat) → List Char → Option (Value × List Char)
  | 0, _ => none
  | fuel + 1, cs =>
    match skip cs with
    | '\x22' :: cs => (textChars? cs).map fun r => (textValue r.1, r.2)
    | '[' :: cs =>
      match skip cs with
      | ']' :: cs => some (.list [], cs)
      | cs => do
        let (v, cs) ← value? fuel cs
        let (vs, cs) ← items? fuel cs
        pure (.list (v :: vs), cs)
    | '\x7b' :: cs =>
      match skip cs with
      | '\x7d' :: cs => some (.table [], cs)
      | cs => do
        let (f, cs) ← field? fuel cs
        let (fs, cs) ← fields? fuel cs
        pure (tableValue (f :: fs), cs)
    | 'n' :: cs => word? "null" .null ('n' :: cs)
    | 't' :: cs => word? "true" (.bool true) ('t' :: cs)
    | 'f' :: cs => word? "false" (.bool false) ('f' :: cs)
    | cs => numberValue? cs

/-- The items of a list behind the first one, and what follows the list. -/
def items? : (fuel : Nat) → List Char → Option (List Value × List Char)
  | 0, _ => none
  | fuel + 1, cs =>
    match skip cs with
    | ']' :: cs => some ([], cs)
    | ',' :: cs => do
      let (v, cs) ← value? fuel cs
      let (vs, cs) ← items? fuel cs
      pure (v :: vs, cs)
    | _ => none

/-- A field of a table: its name, a colon and its value. -/
def field? : (fuel : Nat) → List Char → Option ((Option (List Char) × Value) × List Char)
  | 0, _ => none
  | fuel + 1, cs => do
    let (name, cs) ← textChars? (← after? '\x22' (skip cs))
    let (v, cs) ← value? fuel (← after? ':' (skip cs))
    pure ((name, v), cs)

/-- The fields of a table behind the first one, and what follows the table. -/
def fields? : (fuel : Nat) → List Char → Option (List (Option (List Char) × Value) × List Char)
  | 0, _ => none
  | fuel + 1, cs =>
    match skip cs with
    | '\x7d' :: cs => some ([], cs)
    | ',' :: cs => do
      let (f, cs) ← field? fuel cs
      let (fs, cs) ← fields? fuel cs
      pure (f :: fs, cs)
    | _ => none

end

/-- The value of the characters `cs` of a JSON text. -/
def readChars? (cs : List Char) : Option Value := do
  let (v, cs) ← value? (2 * cs.length + 1) cs
  if (skip cs).isEmpty then some v else none

/-- The value of the JSON text `s`. -/
def read? (s : String) : Option Value := readChars? s.toList

end DocSearch.Json
