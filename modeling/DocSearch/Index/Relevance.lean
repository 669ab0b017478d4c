import DocSearch.Index.Condition

/-!
# Relevance

How well a document meets a condition, in single precision.  A term counts for more the fewer
documents have it (`Relevance.rarity`), the more often it stands in the document (if that is
counted), and the shorter the field is there (`Relevance.weigh`); patterns, ranges and sets of terms
count for one.  A boolean condition adds up the parts that are met (`Corpus.score`).

No property of the numbers is used anywhere but that they are ordered in some way: what is proved of
answers holds for whatever `Corpus.score` is.
-/

namespace DocSearch

/-- A raw score, in single precision. -/
abbrev Score := Float32

namespace Relevance

/-- How fast repetitions of a term stop counting. -/
def saturation : Float32 := 1.2

/-- How much the length of a field counts. -/
def lengthShare : Float32 := 0.75

/-- A length as it is kept: exact up to `40`, beyond that with four binary digits of what exceeds
`24`. -/
def keptLength (n : Nat) : Nat :=
  if n ≤ 40 then n
  else
    let step := Nat.pow 2 (Nat.log2 (n - 24) - 3)
    (n - 24) / step * step + 24

/-- What a term is worth that `holders` of `total` documents have. -/
def rarity (total holders : Nat) : Float32 :=
  (1 + (Float32.ofNat (total - holders) + 0.5) / (Float32.ofNat holders + 0.5)).log

/-- The score of a term or phrase that stands `count` times in a field of `length` terms. -/
def weigh (rarity : Float32) (count length : Nat) (averageLength : Float32) : Float32 :=
  let norm := saturation *
    (1 - lengthShare + lengthShare * Float32.ofNat (keptLength length) / averageLength)
  rarity * (1 + saturation) * (Float32.ofNat count / (Float32.ofNat count + norm))

end Relevance

namespace Corpus

/-- What the term `t` of the field `f` is worth among the documents in `c`. -/
def rarity (c : Corpus) (f : Field) (t : String) : Float32 :=
  Relevance.rarity c.length (c.holders f t)

/-- The score of the document `d` for a term; `counted` says whether repetitions count. -/
def termScore (c : Corpus) (d : Document) (f : Field) (t : String) (counted : Bool) : Score :=
  let terms := d.terms f
  let count := if counted && f.analysis = .words then terms.count t else 1
  Relevance.weigh (c.rarity f t) count terms.length (c.averageLength f)

/-- The score of the document `d` for the phrase `p`: its words are worth their sum. -/
def phraseScore (c : Corpus) (d : Document) (f : Field) (p : Phrase) : Score :=
  let worth := p.words.foldl (fun sum w => sum + c.rarity f w.term) 0
  Relevance.weigh worth (p.count (d.tokens f)) (d.terms f).length (c.averageLength f)

mutual

/-- The score of a document that meets a condition, which weighs `factor` times as much.  Behind an
open end only the words before it are scored; a single one counts for one, whatever the factor. -/
def score (c : Corpus) (d : Document) (factor : Float32) : Condition → Score
  | .everything => factor
  | .term f t counted => factor * c.termScore d f t counted
  | .pattern .. => factor
  | .range .. => factor
  | .oneOf .. => factor
  | .phrase f p => factor * c.phraseScore d f p
  | .opening f words _ _ => if words.length ≤ 1 then 1 else factor * c.phraseScore d f ⟨words, 0⟩
  | .scaled condition factor' => c.score d (factor * factor') condition
  | .parts ps => c.scoreParts d factor 0 ps

/-- The sum of the scores of the parts that `d` meets and that count for it, added to `sum`. -/
def scoreParts (c : Corpus) (d : Document) (factor : Float32) (sum : Score) :
    List (Occur × Condition) → Score
  | [] => sum
  | p :: ps =>
    c.scoreParts d factor (if p.1 ≠ .mustNot &&
      p.2.ranks d then sum + c.score d factor p.2 else sum) ps

end

end Corpus

/-- A raw score in whole percent: `0` if it is not positive or not finite, at most `100`. -/
def Score.percent (s : Score) : Nat :=
  if s.isFinite && 0 < s then
    let p := (s * 100).floor
    if p < 100 then p.toUInt8.toNat else 100
  else 0

end DocSearch
