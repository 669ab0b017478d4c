import DocSearch.Index.Statement
import DocSearch.Text.Quoted

/-!
# The meaning of a statement

A statement becomes a `Condition` on the documents of a corpus.  A text without a field asks for it
in the default fields; a text of several words asks for them in sequence, the rarest one in front;
an open end stands for the first terms of the corpus that begin with it; a text without words asks
for nothing and vanishes.  Unmarked parts must hold.

The parts are read one after the other (`Statement.rawParts`), each leaf by `Leaf.condition`.  What
asks for nothing is then taken out (`Condition.trimmed?`).  `Statement.condition` fails with the
first fault met from left to right, or if the statement only excludes; which fault that is does not
depend on the corpus.
-/

namespace DocSearch

/-- Why a statement has no meaning. -/
inductive StatementFault where
  | malformed (statement : String)
  | unknownField (field : String)
  | notIndexed (field : Field)
  | rangeWithoutField
  /-- A text with an open end that gives less than two terms. -/
  | tooShort (text : String) (analysis : Analysis)
  | unclearBound (text : String)
  | onlyExcluding
deriving DecidableEq, Repr

/-- The word for an analysis, as `StatementFault.detail` shows it. -/
def Analysis.label : Analysis → String
  | .words => "word_lowercase"
  | .folded => "value_lowercase"
  | .verbatim | .stored => "raw"

namespace StatementFault

/-- The fault in words. -/
def detail : StatementFault → String
  | malformed statement => "Syntax Error: " ++ statement
  | unknownField field => "Field does not exist: '" ++ field ++ "'"
  | notIndexed field => "The field '" ++ field.label ++ "' is not declared as indexed"
  | rangeWithoutField => "Unsupported query: Range query need to target a specific field."
  | tooShort text analysis => "The phrase '" ++ Text.quotedForMessage text ++
      "' does not produce at least two terms using the tokenizer '" ++
      Text.quotedForMessage analysis.label ++ "'"
  | unclearBound text => "Unsupported query: Range query boundary cannot have multiple tokens: " ++
      Text.quotedForMessage text ++ "."
  | onlyExcluding => "Invalid query: Only excluding terms given"

end StatementFault

namespace Field

/-- The fields that a text without a field is looked for in. -/
def defaults : List Field := [name, text, content, subject, keyword]

/-- The terms that the text `t` gives in the field `f`, with their positions. -/
def tokensOf (f : Field) (t : String) : List Token :=
  match f.analysis with
  | .words => Token.ofText t
  | .folded => [⟨0, Text.fold t⟩]
  | .verbatim => [⟨0, t⟩]
  | .stored => []

end Field

namespace Leaf

/-- The field that a leaf names, by its word. -/
def field? (name : String) : Except StatementFault Field :=
  match Field.ofLabel? name with
  | some f => .ok f
  | none => .error (.unknownField name)

/-- What several `words` ask of the field `f`, of which the last one may go on if the text is
`openEnded`. -/
def wordsIn (c : Corpus) (f : Field) (words : List Token) (slop : Nat) (openEnded : Bool) :
    Condition :=
  match words.getLast? with
  | some w =>
    if openEnded then .opening f words.dropLast w.position (c.endings f w.term)
    else .phrase f ⟨c.rarestFirst f words, slop⟩
  | none => .nothing

/-- What the text `t` asks of the field `f`; nothing if it gives no term there. -/
def textIn (c : Corpus) (f : Field) (t : String) (slop : Nat) (openEnded : Bool) :
    Except StatementFault (List Condition) :=
  if f.analysis = .stored then .error (.notIndexed f)
  else
    match f.tokensOf t with
    | [] => if openEnded then .error (.tooShort t f.analysis) else .ok []
    | [w] => if openEnded then .error (.tooShort t f.analysis) else .ok [.term f w.term true]
    | ws => .ok [wordsIn c f ws slop openEnded]

/-- The one term that the text `t` gives in the field `f`, as an end of a range must. -/
def singleTerm (f : Field) (t : String) : Except StatementFault String :=
  if f.analysis = .stored then .error (.notIndexed f)
  else
    match f.tokensOf t with
    | [w] => .ok w.term
    | _ => .error (.unclearBound t)

/-- An end of a range as an end among the terms of the field `f`. -/
def boundIn (f : Field) : Bound → Except StatementFault Bound
  | .unbounded => .ok .unbounded
  | .included t => (singleTerm f t).map .included
  | .excluded t => (singleTerm f t).map .excluded

/-- The one condition, or all of `cs` as alternatives. -/
def alternatives : List Condition → Condition
  | [c] => c
  | cs => .anyOf cs

/-- What a leaf asks of the documents in `c`. -/
def condition (c : Corpus) : Leaf → Except StatementFault Condition
  | everything => .ok .everything
  | text none t slop openEnded => do
    let cs ← Field.defaults.mapM fun f => textIn c f t slop openEnded
    pure (alternatives cs.flatten)
  | text (some name) t slop openEnded => do
    pure (alternatives (← textIn c (← field? name) t slop openEnded))
  | range none _ _ => .error .rangeWithoutField
  | range (some name) lower upper => do
    let f ← field? name
    match ← boundIn f lower, ← boundIn f upper with
    | .unbounded, .unbounded => pure .nothing
    | lower, upper => pure (.range f lower upper)
  | oneOf none _ => .error .rangeWithoutField
  | oneOf (some name) values => do
    let f ← field? name
    pure (.oneOf f (← values.mapM (singleTerm f)))
  | present _ => .error .rangeWithoutField

end Leaf

namespace Condition

mutual

/-- Whether a condition only says what must not hold, or nothing. -/
def excludesOnly : Condition → Bool
  | .parts ps => partsExcludeOnly ps
  | .scaled c _ => excludesOnly c
  | _ => false

/-- Whether every one of some parts only says what must not hold, or nothing. -/
def partsExcludeOnly : List (Occur × Condition) → Bool
  | [] => true
  | p :: ps => (p.1 = .mustNot || excludesOnly p.2) && partsExcludeOnly ps

end

mutual

/-- A condition without the parts that ask for nothing; `none` if nothing is left.  What has a
weight stays, even if it then asks for nothing. -/
def trimmed? : Condition → Option Condition
  | .parts ps =>
    match trimmedParts ps with
    | [] => none
    | ps => some (.parts ps)
  | .scaled c factor => some (.scaled ((trimmed? c).getD .nothing) factor)
  | c => some c

/-- Parts without those that ask for nothing, see `trimmed?`. -/
def trimmedParts : List (Occur × Condition) → List (Occur × Condition)
  | [] => []
  | p :: ps =>
    match trimmed? p.2 with
    | some c => (p.1, c) :: trimmedParts ps
    | none => trimmedParts ps

end

/-- Whether a condition has no parts. -/
def isVoid : Condition → Bool
  | .parts [] => true
  | _ => false

/-- The condition `c`, weighing `factor` times as much; a factor of one changes nothing. -/
def scale (factor : Float32) (c : Condition) : Condition :=
  if (factor - 1).abs < 1.1920929e-7 then c else .scaled c factor

end Condition

namespace Statement

mutual

/-- What a statement asks, before what asks for nothing is taken out. -/
def raw (c : Corpus) : Statement → Except StatementFault Condition
  | .leaf l => l.condition c
  | .clause ps => (rawParts c ps).map .parts
  | .weighted s w => (raw c s).map (.scale w.toFloat32)

/-- What some parts ask; unmarked parts must hold. -/
def rawParts (c : Corpus) : List Part → Except StatementFault (List (Occur × Condition))
  | [] => .ok []
  | p :: ps => do
    let asked ← raw c p.2
    let others ← rawParts c ps
    pure ((p.1.getD .must, asked) :: others)

end

/-- What the statement `s` asks of the documents in `c`. -/
def condition (c : Corpus) (s : Statement) : Except StatementFault Condition := do
  let asked ← raw c s
  if !asked.isVoid && asked.excludesOnly then .error .onlyExcluding
  else pure (asked.trimmed?.getD .nothing)

/-- What the statement that `text` spells asks, if it spells one. -/
def conditionOf (c : Corpus) (text : String) : Except StatementFault Condition :=
  match parse? text with
  | none => .error (.malformed text)
  | some s => s.condition c

end Statement

end DocSearch
