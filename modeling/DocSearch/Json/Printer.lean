import DocSearch.Data.Value
import DocSearch.Text.Digits

/-!
# Writing JSON

`Json.write` writes a tree of data without blanks.  In texts a quote, a backslash and the control
characters are escaped, the common ones by a letter and the others as `\u00XX`; all else stands as
it is.  What has no text of its own (an infinite number, a text with half of a surrogate pair) is
written as `null`.

The three functions `Json.chars`, `Json.itemChars` and `Json.fieldChars` follow the data, and the
readers of the same names without `Chars` follow them; this is what the proof that a value is read
back goes by.
-/

namespace DocSearch.Json

/-- The hexadecimal digit of `n`, which is below sixteen. -/
def hexDigit (n : Nat) : Char := if n < 10 then Char.ofNat (48 + n) else Char.ofNat (87 + n)

/-- The character `c` as it stands inside a quoted text. -/
def escaped (c : Char) : List Char :=
  if c = '\x22' then ['\\', '\x22']
  else if c = '\\' then ['\\', '\\']
  else if c = '\n' then ['\\', 'n']
  else if c = '\r' then ['\\', 'r']
  else if c = '\t' then ['\\', 't']
  else if c = '\x08' then ['\\', 'b']
  else if c = '\x0c' then ['\\', 'f']
  else if c.toNat < 32 then ['\\', 'u', '0', '0', hexDigit (c.toNat / 16), hexDigit (c.toNat % 16)]
  else [c]

/-- The text `s` in quotes. -/
def quoted (s : String) : List Char := '\x22' :: s.toList.flatMap escaped ++ ['\x22']

/-- The digits of `n`, behind a minus if it is negative. -/
def intChars (n : Int) : List Char :=
  if n < 0 then '-' :: Text.decimal n.natAbs else Text.decimal n.natAbs

/-- A number with an exponent; JSON has no infinite ones, for which `null` stands. -/
def decimalChars : Decimal → List Char
  | .finite negative digits exponent =>
    (if negative then ['-'] else []) ++ Text.decimal digits ++ 'e' :: intChars exponent
  | _ => "null".toList

mutual

/-- The characters of the JSON text of a value, see `write`. -/
def chars : Value → List Char
  | .null => "null".toList
  | .undecodable => "null".toList
  | .bool true => "true".toList
  | .bool false => "false".toList
  | .int n => intChars n
  | .decimal d => decimalChars d
  | .text s => quoted s
  | .date s => quoted s
  | .list [] => ['[', ']']
  | .list (v :: vs) => '[' :: chars v ++ itemChars vs
  | .table [] => ['\x7b', '\x7d']
  | .table (f :: fs) => '\x7b' :: quoted f.1 ++ ':' :: chars f.2 ++ fieldChars fs
  | .openTable [] => ['\x7b', '\x7d']
  | .openTable (f :: fs) => '\x7b' :: quoted f.1 ++ ':' :: chars f.2 ++ fieldChars fs

/-- The items of a list behind the first one, and its end. -/
def itemChars : List Value → List Char
  | [] => [']']
  | v :: vs => ',' :: chars v ++ itemChars vs

/-- The fields of a table behind the first one, and its end. -/
def fieldChars : List (String × Value) → List Char
  | [] => ['\x7d']
  | f :: fs => ',' :: quoted f.1 ++ ':' :: chars f.2 ++ fieldChars fs

end

/-- The JSON text of the value `v`. -/
def write (v : Value) : String := String.ofList (chars v)

example : write (.list [.int (-5), .text "a\x22\n", .table [("k", .null)]]) =
    "[-5,\x22a\\\x22\\n\x22,\x7b\x22k\x22:null\x7d]" := by decide +kernel

end DocSearch.Json
