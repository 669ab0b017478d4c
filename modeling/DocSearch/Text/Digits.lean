/-!
# Decimal digits

Numbers are written by `decimal` (no leading zero) or `padded` (a fixed number of digits) and read
by `number?`, which takes as many digits as it may.  Only the ASCII digits count.

`padded` keeps the last places of a number that has more, so it writes what is read back only for a
number that fits; where it is used, the number is a month, a minute or the like, and does.
-/

namespace DocSearch.Text

/-- The digit for the last decimal place of `n`. -/
def lastDigit (n : Nat) : Char := Char.ofNat (48 + n % 10)

/-- The last `width` decimal places of `n`, zeros included. -/
def padded : (width n : Nat) → List Char
  | 0, _ => []
  | width + 1, n => padded width (n / 10) ++ [lastDigit n]

/-- The number of decimal places of `n`; `fuel` bounds it. -/
def placesWithin : (fuel n : Nat) → Nat
  | 0, _ => 1
  | fuel + 1, n => if n < 10 then 1 else placesWithin fuel (n / 10) + 1

/-- The number of decimal places of `n`. -/
def places (n : Nat) : Nat := placesWithin n n

/-- `n` with all its decimal places and no more. -/
def decimal (n : Nat) : List Char := padded (places n) n

/-- `n` with at least `width` decimal places. -/
def paddedAtLeast (width n : Nat) : List Char := padded (max width (places n)) n

/-- The value of the digit `c`. -/
def digitValue (c : Char) : Nat := c.toNat - 48

/-- The number written by the digits `ds`. -/
def valueOf (ds : List Char) : Nat := ds.foldl (fun n c => n * 10 + digitValue c) 0

/-- The digits at the front, at most `most` of them, and what follows. -/
def takeDigits : (most : Nat) → List Char → List Char × List Char
  | most + 1, c :: cs =>
    if c.isDigit then
      let taken := takeDigits most cs
      (c :: taken.1, taken.2)
    else ([], c :: cs)
  | _, cs => ([], cs)

/-- The number at the front, of `least` to `most` digits and as many as there are, and what
follows. -/
def number? (least most : Nat) (cs : List Char) : Option (Nat × List Char) :=
  let taken := takeDigits most cs
  if taken.1.length < least then none else some (valueOf taken.1, taken.2)

/-- What follows `c`, if the text begins with it. -/
def after? (c : Char) : List Char → Option (List Char)
  | d :: cs => if d = c then some cs else none
  | [] => none

example : decimal 0 = ['0'] ∧ decimal 120 = "120".toList ∧ padded 2 5 = "05".toList := by decide

example : paddedAtLeast 4 7 = "0007".toList ∧ paddedAtLeast 4 12024 = "12024".toList := by decide

example : number? 1 2 "123".toList = some (12, ['3']) ∧ number? 2 2 "1x".toList = none := by decide

end DocSearch.Text
