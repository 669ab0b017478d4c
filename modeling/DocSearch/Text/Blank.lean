/-!
# Classes of characters, blanks, trimming and runs

A property of characters is given by the ranges of code points that have it (`inRanges`); the tables
of the other classes of characters are read by the same function.  Blanks are the characters with
the property White_Space (`isBlank`).

`trim` takes characters of a class off both ends of a text, `runs` finds the maximal stretches of
characters of a class: with "not blank" they are the words of a text (`words`), with "letter or
number" the words of the index.  `pieces` cuts a text at a character, as lists of options are cut at
commas; unlike words, pieces may be empty.
-/

namespace DocSearch.Text

/-- Whether `n` lies in one of the given ranges, which are in increasing order. -/
def inRanges (n : Nat) : List (Nat × Nat) → Bool
  | [] => false
  | (first, last) :: rest => if n < first then false else n ≤ last || inRanges n rest

/-- The code points with the property White_Space, for `inRanges`. -/
def blankRanges : List (Nat × Nat) := [
    (0x9, 0xD), (0x20, 0x20), (0x85, 0x85), (0xA0, 0xA0), (0x1680, 0x1680), (0x2000, 0x200A),
    (0x2028, 0x2029), (0x202F, 0x202F), (0x205F, 0x205F), (0x3000, 0x3000)]

/-- Whether the character `c` is white space. -/
def isBlank (c : Char) : Bool := inRanges c.toNat blankRanges

/-- The text `cs` without the characters of class `p` that it begins with. -/
def trimStart (p : Char → Bool) (cs : List Char) : List Char := cs.dropWhile p

/-- The text `cs` without the characters of class `p` that it ends with. -/
def trimEnd (p : Char → Bool) (cs : List Char) : List Char := (cs.reverse.dropWhile p).reverse

/-- The text `cs` without the characters of class `p` at either end. -/
def trim (p : Char → Bool) (cs : List Char) : List Char := trimEnd p (trimStart p cs)

/-- The text `s` without the blanks around it. -/
def trimmed (s : String) : String := String.ofList (trim isBlank s.toList)

/-- The trimmed text, unless nothing is left of `s`. -/
def nonBlank? (s : String) : Option String :=
  let t := trimmed s
  if t.isEmpty then none else some t

/-- The maximal runs of characters of class `p`, in order. -/
def runs (p : Char → Bool) : List Char → List (List Char)
  | [] => []
  | c :: cs =>
    if p c then
      match cs, runs p cs with
      | d :: _, w :: ws => if p d then (c :: w) :: ws else [c] :: w :: ws
      | _, ws => [c] :: ws
    else runs p cs

/-- The words of `s`: its maximal runs of characters that are not blank. -/
def words (s : String) : List String := (runs (fun c => !isBlank c) s.toList).map String.ofList

/-- The pieces of `s` between the occurrences of `separator`; always at least one. -/
def pieces (separator : Char) (s : String) : List String :=
  (s.toList.splitOn separator).map String.ofList

/-- The characters of `trimmed`. -/
theorem toList_trimmed (s : String) : (trimmed s).toList = trim isBlank s.toList :=
  String.toList_ofList

example : runs Char.isDigit "12a3--45".toList = ["12".toList, "3".toList, "45".toList] := by decide

example : words " a\u00a0b  c\n" = ["a", "b", "c"] := by decide +kernel

example : trimmed "\u3000 x y\t" = "x y" := by decide +kernel

end DocSearch.Text
