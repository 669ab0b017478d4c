import DocSearch.Index.Document

/-!
# Phrases

A phrase asks for words at given distances, among the words of a text with their positions.  A word
stands where the phrase would begin if it were in its place, so that the words of a phrase without a
gap have one place.  Each next word may be off the place of the one before, in either direction, as
long as the gaps add up to the slop at most.  The words are looked for in the order in which they
are listed, which matters only for slop.

`Phrase.occurs` says whether a text has the phrase, `Phrase.count` how often, for its score.  The
sum of the gaps is kept by `count` up to the last word, while `occurs` compares the last gap alone;
so a text may have the phrase and still not score.
-/

namespace DocSearch

/-- Words at given positions, with the gaps that are allowed between them. -/
structure Phrase where
  /-- in the order in which they are looked for -/
  words : List Token
  slop : Nat
deriving DecidableEq, Repr

namespace Phrase

/-- Where the word `w` of a phrase stands in `text`: where the phrase would begin. -/
def placesOf (text : List Token) (w : Token) : List Int :=
  (text.filter (·.term == w.term)).map fun t => (t.position : Int) - w.position

/-- How far apart two places are. -/
def gap (a b : Int) : Nat := (a - b).natAbs

/-- The least of some sums of gaps, if `slop` allows it. -/
def least? (slop : Nat) (used : List Nat) : Option Nat := used.min?.filter (· ≤ slop)

/-- The places reached with one more word, each with the gaps used at least.  Both the place of the
word and the one before it count, since the word after it may be on either side. -/
def extend (slop : Nat) (reached : List (Int × Nat)) (next : List Int) : List (Int × Nat) :=
  (reached.filterMap fun r => (least? slop (next.map fun n => r.2 + gap r.1 n)).map (r.1, ·)) ++
  next.filterMap fun n => (least? slop (reached.map fun r => r.2 + gap r.1 n)).map (n, ·)

/-- The places reached with all words but the last one, each with the gaps used. -/
def reached (p : Phrase) (text : List Token) : List (Int × Nat) :=
  match p.words.dropLast with
  | [] => []
  | w :: ws =>
    ws.foldl (fun r w => extend p.slop r (placesOf text w)) ((placesOf text w).map (·, 0))

/-- The places of the last word. -/
def lastPlaces (p : Phrase) (text : List Token) : List Int :=
  match p.words.getLast? with
  | some w => placesOf text w
  | none => []

/-- Whether `text` has the phrase `p`. -/
def occurs (p : Phrase) (text : List Token) : Bool :=
  let reached := p.reached text
  (p.lastPlaces text).any fun n => reached.any fun r => gap r.1 n ≤ p.slop

/-- The number of pairs of a left and a right place that are near enough, from left to right and no
place in two pairs; of several left places that are not beyond the right one the last is taken. -/
def pairs (slop : Nat) : List Int → List Int → Nat
  | l :: ls, r :: rs =>
    if gap l r ≤ slop then pairs slop (ls.dropWhile (· ≤ r)) rs + 1
    else if l < r then pairs slop ls (r :: rs)
    else pairs slop (l :: ls) rs
  | _, _ => 0
termination_by ls rs => ls.length + rs.length
decreasing_by
  · have := (ls.dropWhile_sublist (· ≤ r)).length_le
    simp only [List.length_cons]
    omega
  all_goals simp only [List.length_cons]; omega

/-- How often `text` has the phrase `p`, for its score. -/
def count (p : Phrase) (text : List Token) : Nat :=
  match p.words with
  | [first, second] => pairs p.slop (placesOf text first) (placesOf text second)
  | _ =>
    let reached := p.reached text
    (p.lastPlaces text).countP fun n => reached.any fun r => r.2 + gap r.1 n ≤ p.slop

/-- Whether `text` has the `words` without a gap and behind them, at `position`, one of the
`terms`. -/
def leadsTo (words : List Token) (position : Nat) (terms : List String)
    (text : List Token) : Bool :=
  text.any fun t => terms.contains t.term &&
    words.all fun w => (placesOf text w).contains ((t.position : Int) - position)

end Phrase

end DocSearch
