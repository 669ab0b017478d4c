import DocSearch.Data.Value
import DocSearch.Text.Digits

/-!
# Binary floating-point numbers

A `Binary64` is a number `± mantissa · 2 ^ exponent` of the 64-bit format, an infinity, or no
number.  Settings need three things of it:

* `Binary64.ofDecimal` takes the number nearest to a decimal,
* `Binary64.text` writes the shortest decimal that is read as the same number, without an exponent,
* `Binary64.roundToWord` rounds to the nearest unsigned 64-bit word.

All three are computed exactly, with rationals, so that nothing depends on the arithmetic of the
machine.
-/

namespace DocSearch

/-- A number of the 64-bit format. -/
inductive Binary64 where
  | finite (negative : Bool) (mantissa : Nat) (exponent : Int)
  | infinite (negative : Bool)
  | notANumber
deriving DecidableEq, Repr

namespace Binary64

/-- A power of the positive `base`, with any exponent. -/
def power (base : Nat) : Int → Rat
  | .ofNat e => Nat.pow base e
  | .negSucc e => 1 / Nat.pow base (e + 1)

/-- The integer nearest to `x`; a half goes to the even neighbour. -/
def roundHalfEven (x : Rat) : Int :=
  let n := x.floor
  let rest := x - n
  if rest < 1 / 2 ∨ (rest = 1 / 2 ∧ n % 2 = 0) then n else n + 1

/-- The exponent of the greatest power of two that is not above the positive number `x`. -/
def floorLog2 (x : Rat) : Int :=
  let e : Int := x.num.natAbs.log2 - x.den.log2
  if power 2 e ≤ x then e else e - 1

/-- The least exponent there is, that of the smallest numbers. -/
def leastExponent : Int := -1074

/-- The least mantissa of a number whose exponent is not the least one; the mantissas are below
twice as much. -/
def leastMantissa : Nat := Nat.pow 2 52

/-- The first power of two that is too large to be a finite number. -/
def tooLarge : Rat := power 2 1024

/-- The number nearest to the positive number `x`, with a sign. -/
def ofPositive (negative : Bool) (x : Rat) : Binary64 :=
  let exponent := max leastExponent (floorLog2 x - 52)
  let mantissa := (roundHalfEven (x / power 2 exponent)).toNat
  if tooLarge ≤ mantissa * power 2 exponent then infinite negative
  else if mantissa = 2 * leastMantissa then finite negative leastMantissa (exponent + 1)
  else finite negative mantissa exponent

/-- The number nearest to a decimal.  Beyond 400 decimal places nothing but zero and infinity is
near. -/
def ofDecimal : Decimal → Binary64
  | .infinite negative => infinite negative
  | .notANumber => notANumber
  | .finite negative digits exponent =>
    let size := exponent + Text.places digits
    if digits = 0 ∨ size < -400 then finite negative 0 leastExponent
    else if 400 < size then infinite negative
    else ofPositive negative (digits * power 10 exponent)

/-! ## Rounding to a word -/

/-- The nearest unsigned 64-bit word; a half goes up, what is below zero and what is no number to
`0`. -/
def roundToWord : Binary64 → UInt64
  | finite false mantissa exponent =>
    let n := (mantissa * power 2 exponent + 1 / 2).floor.toNat
    UInt64.ofNat (min n 18446744073709551615)
  | infinite false => 18446744073709551615
  | _ => 0

/-! ## The shortest text -/

/-- Whether `x` is read as the finite number with this `mantissa` and `exponent`. -/
def readsAs (mantissa : Nat) (exponent : Int) (x : Rat) : Bool :=
  let step := power 2 exponent
  let below : Rat := if mantissa = leastMantissa ∧ leastExponent < exponent then 1 / 4 else 1 / 2
  let first := (mantissa - below) * step
  let last := (mantissa + 1 / 2) * step
  if mantissa % 2 = 0 then first ≤ x && x ≤ last else first < x && x < last

/-- The multiple of `10 ^ place` that is read as the number, the nearer one of two. -/
def onGrid? (mantissa : Nat) (exponent place : Int) : Option Nat :=
  let unit := power 10 place
  let x := mantissa * power 2 exponent
  let n := (x / unit).floor.toNat
  let low := readsAs mantissa exponent (n * unit)
  let high := readsAs mantissa exponent ((n + 1 : Nat) * unit)
  if low && (!high || x - n * unit ≤ (n + 1 : Nat) * unit - x) then some n
  else if high then some (n + 1) else none

/-- The shortest decimal, `digits · 10 ^ place`, its place at most `place`; `fuel` bounds the number
of places that are tried. -/
def shortestFrom (mantissa : Nat) (exponent : Int) : (fuel : Nat) → (place : Int) → Nat × Int
  | 0, place => (0, place)
  | fuel + 1, place =>
    match onGrid? mantissa exponent place with
    | some digits => (digits, place)
    | none => shortestFrom mantissa exponent fuel (place - 1)

/-- The `digits` and the place of the last one, without an exponent. -/
def positional (digits : Nat) : (place : Int) → List Char
  | .ofNat zeros => Text.decimal digits ++ List.replicate zeros '0'
  | .negSucc places =>
    let unit := Nat.pow 10 (places + 1)
    Text.decimal (digits / unit) ++ '.' :: Text.padded (places + 1) (digits % unit)

/-- The shortest text that is read as the number. -/
def text : Binary64 → String
  | notANumber => "NaN"
  | infinite negative => if negative then "-inf" else "inf"
  | finite negative mantissa exponent =>
    let digits := if mantissa = 0 then ['0'] else
      let (digits, place) := shortestFrom mantissa exponent 700 309
      positional digits place
    String.ofList (if negative then '-' :: digits else digits)

example : (ofDecimal (.finite false 15 (-1))).text = "1.5" ∧
    (ofDecimal (.finite false 20 (-1))).roundToWord = 2 := by decide +kernel

end Binary64

end DocSearch
