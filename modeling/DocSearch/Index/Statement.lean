import DocSearch.Index.Condition

/-!
# Statements

A statement is a search written by hand: words and quoted phrases, perhaps of a named field, ranges
and sets of values, joined by `AND`, `OR`, `NOT`, `+`, `-` and parentheses, with a weight behind
`^`.  `Statement.parse?` reads one; of several ways to read a part the first one listed counts, and
it is not reconsidered later.

Every reader here takes characters and gives what it read together with those behind it, or `none`.
The readers of single things end with `Statement.literal?`.  How these are joined is said apart from
the reading: `Statement.sequence?` collects a list of `Operand`s, each with the junction in front of
it, and `Statement.ofOperands` makes clauses of them.  The three readers that call each other are
bounded by `fuel`, of which four times the length of the text is enough.
-/

namespace DocSearch

/-- A part of a statement that asks for one thing. -/
inductive Leaf where
  | everything
  /-- A word or quoted `text`; `openEnded` says that its last word may go on. -/
  | text (field : Option String) (text : String) (slop : Nat) (openEnded : Bool)
  /-- The field has a value between two ends; `*` leaves an end open. -/
  | range (field : Option String) (lower upper : Bound)
  | oneOf (field : Option String) (values : List String)
  /-- The field has some value. -/
  | present (field : Option String)
deriving DecidableEq, Repr

/-- A statement as written.  A part without a mark counts as the reader of the statement decides. -/
inductive Statement where
  | leaf (l : Leaf)
  | clause (parts : List (Option Occur × Statement))
  | weighted (s : Statement) (weight : Float)

instance : Inhabited Statement := ⟨.clause []⟩

/-- The same question asked of `field`. -/
def Leaf.ofField (field : Option String) : Leaf → Leaf
  | .everything => .everything
  | .text _ t slop openEnded => .text field t slop openEnded
  | .range _ lower upper => .range field lower upper
  | .oneOf _ values => .oneOf field values
  | .present _ => .present field

namespace Statement

open Text

/-- The statement `s` marked as a whole, as one part of a clause. -/
def marked (occur : Occur) (s : Statement) : Statement := .clause [(some occur, s)]

/-! ## Words, numbers and names -/

/-- Blanks between the parts of a statement. -/
def isGap (c : Char) : Bool := c = ' ' || c = '\t' || c = '\r' || c = '\n'

/-- What follows the blanks at the front of `cs`. -/
def skip (cs : List Char) : List Char := cs.dropWhile isGap

/-- What follows the blanks at the front, of which there must be one. -/
def skipSome? : List Char → Option (List Char)
  | c :: cs => if isGap c then some (skip cs) else none
  | [] => none

/-- What follows `word`, if it stands at the front of `cs`. -/
def afterWord? (word : String) (cs : List Char) : Option (List Char) :=
  if word.toList.isPrefixOf cs then some (cs.drop word.length) else none

/-- The characters that do not stand in a field name by themselves. -/
def isFieldMark (c : Char) : Bool :=
  ['+', '^', '\x60', ':', '\x7b', '\x7d', '\x22', '[', ']', '(', ')', '!', '\\', '*',
    ' '].contains c

/-- The characters of a field name; a backslash takes the meaning off a mark behind it. -/
def fieldChars : List Char → List Char × List Char
  | '\\' :: c :: cs =>
    if isFieldMark c then
      let r := fieldChars cs
      (c :: r.1, r.2)
    else
      let r := fieldChars (c :: cs)
      ('\\' :: r.1, r.2)
  | ['\\'] => (['\\'], [])
  | c :: cs =>
    if isFieldMark c then ([], c :: cs)
    else
      let r := fieldChars cs
      (c :: r.1, r.2)
  | [] => ([], [])

/-- A field name and what follows the colon behind it. -/
def fieldName? (cs : List Char) : Option (String × List Char) := do
  let starts := match cs with
    | '\\' :: c :: _ => isFieldMark c
    | c :: _ => c ≠ '-' && !isFieldMark c
    | [] => false
  if starts then
    let r := fieldChars cs
    let rest ← after? ':' r.2
    pure (String.ofList r.1, rest)
  else none

/-- The marks that end a word. -/
def isWordEnd (c : Char) : Bool :=
  isBlank c || [':', '^', '\x7b', '\x7d', '\x22', '[', ']', '(', ')'].contains c

/-- A word without quotes; the words that join parts, such as `OR`, are none. -/
def word? (cs : List Char) : Option (String × List Char) :=
  match cs with
  | c :: _ =>
    if isWordEnd c || c = '-' || c = '\x60' then none
    else
      let w := String.ofList (cs.takeWhile fun c => !isWordEnd c)
      if w = "OR" ∨ w = "AND" ∨ w = "NOT" ∨ w = "IN" then none
      else some (w, cs.dropWhile fun c => !isWordEnd c)
  | [] => none

/-- Digits, and perhaps a point with digits behind it. -/
def digits? (cs : List Char) : Option (List Char × List Char) :=
  let whole := takeDigits cs.length cs
  if whole.1.isEmpty then none
  else
    match whole.2 with
    | '.' :: rest =>
      let fraction := takeDigits rest.length rest
      if fraction.1.isEmpty then some whole else some (whole.1 ++ '.' :: fraction.1, fraction.2)
    | _ => some whole

/-- A number with a minus, which would otherwise be a sign. -/
def negative? : List Char → Option (String × List Char)
  | '-' :: cs => (digits? cs).map fun r => (String.ofList ('-' :: r.1), r.2)
  | _ => none

/-- The characters up to a closing `mark`, a backslash taking the meaning off the character behind
it. -/
def quotedChars? (mark : Char) : List Char → Option (List Char × List Char)
  | '\\' :: c :: cs => (quotedChars? mark cs).map fun r => (c :: r.1, r.2)
  | c :: cs =>
    if c = mark then some ([], cs) else (quotedChars? mark cs).map fun r => (c :: r.1, r.2)
  | [] => none

/-- A text between two of `mark`. -/
def quoted? (mark : Char) (cs : List Char) : Option (String × List Char) := do
  let r ← quotedChars? mark (← after? mark cs)
  pure (String.ofList r.1, r.2)

/-- A value: a negative number, a quoted text or a word. -/
def term? (cs : List Char) : Option (String × List Char) :=
  (negative? cs).or ((quoted? '\x27' cs).or ((quoted? '\x22' cs).or (word? cs)))

/-! ## Leaves -/

/-- A value with what may stand behind it: a star, or a tilde and a number. -/
def textLeaf? (cs : List Char) : Option (Leaf × List Char) := do
  let (t, cs) ← term? cs
  match cs with
  | '*' :: cs => pure (.text none t 0 true, cs)
  | '~' :: rest =>
    match number? 1 rest.length rest with
    | some (slop, rest) =>
      if slop < 4294967296 then pure (.text none t slop false, rest)
      else pure (.text none t 0 false, cs)
    | none => pure (.text none t 0 false, cs)
  | cs => pure (.text none t 0 false, cs)

/-- The marks that end the text of an end of a range. -/
def isBoundEnd (c : Char) : Bool :=
  isBlank c || ['\x7b', '\x7d', '\x22', '[', ']', '(', ')'].contains c

/-- The text of an end of a range, which may hold marks that a word may not. -/
def boundText? (cs : List Char) : Option (String × List Char) :=
  (negative? cs).or <|
    match cs with
    | c :: _ =>
      if isBoundEnd c || c = '\x60' then none
      else some (String.ofList (cs.takeWhile fun c => !isBoundEnd c),
        cs.dropWhile fun c => !isBoundEnd c)
    | [] => none

/-- The end that the text `t` stands for, `make` saying whether it belongs to the range. -/
def bound (make : String → Bound) (t : String) : Bound := if t = "*" then .unbounded else make t

/-- A range with one end, behind a comparison such as `>=`. -/
def comparison? (cs : List Char) : Option (Leaf × List Char) := do
  let (lower, make, cs) ← match skip cs with
    | '>' :: '=' :: cs => some (true, Bound.included, cs)
    | '<' :: '=' :: cs => some (false, Bound.included, cs)
    | '<' :: cs => some (false, Bound.excluded, cs)
    | '>' :: cs => some (true, Bound.excluded, cs)
    | _ => none
  let (t, cs) ← boundText? (skip cs)
  if lower then pure (.range none (bound make t) .unbounded, cs)
  else pure (.range none .unbounded (bound make t), cs)

/-- A range in brackets, which include an end, or braces, which do not. -/
def bracketed? (cs : List Char) : Option (Leaf × List Char) := do
  let (makeLower, cs) ← match cs with
    | '[' :: cs => some (Bound.included, cs)
    | '\x7b' :: cs => some (Bound.excluded, cs)
    | _ => none
  let (lower, cs) ← boundText? (skip cs)
  let cs ← skipSome? (← afterWord? "TO" (← skipSome? cs))
  let (upper, cs) ← boundText? cs
  match skip cs with
  | ']' :: cs => pure (.range none (bound makeLower lower) (bound .included upper), cs)
  | '\x7d' :: cs => pure (.range none (bound makeLower lower) (bound .excluded upper), cs)
  | _ => none

/-- Values with blanks between them; blanks behind the last one are not taken. -/
def terms : (fuel : Nat) → List Char → List String × List Char
  | 0, cs => ([], cs)
  | fuel + 1, cs =>
    match term? cs with
    | none => ([], cs)
    | some (t, cs) =>
      match (skipSome? cs).map (terms fuel) with
      | some (t' :: ts, rest) => (t :: t' :: ts, rest)
      | _ => ([t], cs)

/-- A set of values, `IN [a b]`. -/
def oneOf? (cs : List Char) : Option (Leaf × List Char) := do
  let cs ← after? '[' (← skipSome? (← afterWord? "IN" (skip cs)))
  let (ts, cs) := terms (cs.length + 1) (skip cs)
  pure (.oneOf none ts, ← after? ']' cs)

/-- The star that asks whether a field has a value. -/
def present? (cs : List Char) : Option (Leaf × List Char) :=
  (after? '*' (skip cs)).map (.present none, ·)

/-- A sign in front of a part, `none` if there is none. -/
def sign : List Char → Option Occur × List Char
  | '-' :: cs => (some .mustNot, cs)
  | '+' :: cs => (some .must, cs)
  | cs => (none, cs)

/-- Values with signs and blanks between them; blanks behind the last one are not taken. -/
def signedTexts : (fuel : Nat) → List Char → List (Option Occur × Leaf) × List Char
  | 0, cs => ([], cs)
  | fuel + 1, cs =>
    match textLeaf? (sign cs).2 with
    | none => ([], cs)
    | some (l, rest) =>
      match (skipSome? rest).map (signedTexts fuel) with
      | some (p :: ps, rest) => (((sign cs).1, l) :: p :: ps, rest)
      | _ => ([((sign cs).1, l)], rest)

/-- Values in parentheses behind the name of their field. -/
def fieldGroup? (cs : List Char) : Option (Statement × List Char) := do
  let (field, cs) ← fieldName? cs
  let cs ← after? '(' (skip cs)
  let (parts, cs) := signedTexts (cs.length + 1) (skip cs)
  pure (.clause (parts.map fun p => (p.1, .leaf (p.2.ofField (some field)))), ← after? ')' cs)

/-- A part that asks for one thing. -/
def literal? (cs : List Char) : Option (Statement × List Char) :=
  let (field, rest) := match fieldName? cs with
    | some (field, rest) => (some field, rest)
    | none => (none, cs)
  let leaf := (comparison? rest).or ((bracketed? rest).or ((oneOf? rest).or
    ((present? rest).or (textLeaf? rest))))
  match leaf with
  | some (l, rest) => some (.leaf (l.ofField field), rest)
  | none => fieldGroup? cs

/-! ## Joining parts -/

/-- How two parts are joined: by `AND` or by `OR`. -/
inductive Junction where
  | both
  | either
deriving DecidableEq, Repr

/-- A part with the junction in front of it and its sign. -/
structure Operand where
  junction : Option Junction
  sign : Option Occur
  statement : Statement

/-- The junction in front of a part, and what follows it. -/
def junction (cs : List Char) : Option Junction × List Char :=
  match afterWord? "AND " cs with
  | some cs => (some .both, cs)
  | none =>
    match afterWord? "OR " cs with
    | some cs => (some .either, cs)
    | none => (none, cs)

/-- A part of a clause: how it counts, if it is marked, and what it asks. -/
abbrev Part := Option Occur × Statement

/-- Adds the part `p` to the last of some clauses. -/
def addToLast (p : Part) : List (List Part) → List (List Part)
  | [] => [[p]]
  | [c] => [c ++ [p]]
  | c :: cs => c :: addToLast p cs

/-- How a part counts that has no sign, by the junction in `front` of it and the one `behind` it. -/
def unsigned (front behind : Option Junction) : Option Occur :=
  match front, behind with
  | _, some .both => some .must
  | some .either, _ => some .should
  | _, some .either => some .should
  | _, none => none

/-- Adds the operand `o` to the clauses before it, `behind` being the junction that follows. -/
def addOperand (clauses : List (List Part)) (o : Operand) (behind : Option Junction) :
    List (List Part) :=
  match o.junction with
  | some .both => addToLast (o.sign.or (some .must), o.statement) clauses
  | front =>
    let count := unsigned front behind
    if o.sign = some .mustNot ∧ count = some .should then
      clauses ++ [[(some .should, o.statement.marked .mustNot)]]
    else clauses ++ [[(o.sign.or count, o.statement)]]

/-- The clauses of a sequence of operands: one joined by `AND` to its predecessor is in the clause
of that, any other one starts a clause. -/
def clausesFrom (clauses : List (List Part)) : List Operand → List (List Part)
  | [] => clauses
  | [o] => addOperand clauses o none
  | o :: o' :: os => clausesFrom (addOperand clauses o o'.junction) (o' :: os)

/-- A clause of several clauses, of which those with several parts are optional. -/
def flatten (clauses : List (List Part)) : Statement :=
  .clause (clauses.flatMap fun
    | [p] => [p]
    | ps => [(some .should, .clause ps)])

/-- The statement of a sequence of operands. -/
def ofOperands (os : List Operand) : Statement :=
  match clausesFrom [] os with
  | [[(sign, s)]] => if sign = some .mustNot then .clause [(sign, s)] else s
  | [c] => .clause c
  | cs => flatten cs

/-! ## Reading -/

/-- The number behind `^`, if there is one. -/
def weight? : List Char → Option (Float × List Char)
  | '^' :: cs => do
    let (ds, cs) ← digits? cs
    let whole := ds.takeWhile Char.isDigit
    let fraction := (ds.dropWhile Char.isDigit).drop 1
    pure (Float.ofScientific (valueOf (whole ++ fraction)) true fraction.length, cs)
  | _ => none

/-- The distance from one to the next greater double. -/
def nextToOne : Float := 2.220446049250313e-16

/-- The statement `s` with the weight behind it; a weight of one is none. -/
def withWeight (s : Statement) (cs : List Char) : Statement × List Char :=
  match weight? cs with
  | some (w, cs) => (if nextToOne < (w - 1).abs then .weighted s w else s, cs)
  | none => (s, cs)

mutual

/-- Operands joined or in sequence, blanks around them skipped.  `fuel` bounds the depth and number
of parts. -/
def sequence? : (fuel : Nat) → List Char → Option (Statement × List Char)
  | 0, _ => none
  | fuel + 1, cs => do
    let (first, cs) ← operand? fuel none (skip cs)
    match skipSome? cs with
    | none => pure (alone first, cs)
    | some rest =>
      match operands fuel rest with
      | ([], _) => pure (alone first, rest)
      | (os, rest) => pure (ofOperands (first :: os), rest)
where
  /-- The statement of one operand. -/
  alone (o : Operand) : Statement :=
    if o.sign = some .mustNot then o.statement.marked .mustNot else o.statement

/-- Operands with their junctions, and what follows them and the blanks behind. -/
def operands : (fuel : Nat) → List Char → List Operand × List Char
  | 0, cs => ([], cs)
  | fuel + 1, cs =>
    let (j, rest) := junction cs
    match operand? fuel j (skip rest) with
    | none => ([], cs)
    | some (o, rest) =>
      let r := operands fuel (skip rest)
      (o :: r.1, r.2)

/-- A signed part with its weight, behind the junction `j`. -/
def operand? : (fuel : Nat) → Option Junction → List Char → Option (Operand × List Char)
  | 0, _, _ => none
  | fuel + 1, j, cs => do
    let (s, cs') ← part? fuel (sign cs).2
    let (s, cs') := withWeight s cs'
    pure (⟨j, (sign cs).1, s⟩, cs')

/-- A part: a sequence in parentheses, a star, a negated part, or one thing asked. -/
def part? : (fuel : Nat) → List Char → Option (Statement × List Char)
  | 0, _ => none
  | fuel + 1, cs =>
    let inParentheses := do
      let (s, cs) ← sequence? fuel (← after? '(' cs)
      pure (s, ← after? ')' cs)
    let star := (after? '*' cs).map fun cs => (.leaf .everything, cs)
    let negated := do
      let (s, cs) ← part? fuel (← skipSome? (← afterWord? "NOT" cs))
      pure (s.marked .mustNot, cs)
    inParentheses.or (star.or (negated.or (literal? cs)))

end

/-! ## Simplifying -/

/-- An unmarked clause of one part stands for that part. -/
def simplifyPart : Part → Part
  | (none, .clause [p]) => p
  | p => p

/-- A statement whose own parts are simplified; what stands deeper stays as written. -/
def simplify : Statement → Statement
  | .clause ps => .clause (ps.map simplifyPart)
  | s => s

/-- The statement that `text` states, if it is read to its end. -/
def parse? (text : String) : Option Statement :=
  let cs := skip text.toList
  match sequence? (4 * cs.length + 4) cs with
  | some (s, []) => some s.simplify
  | some _ => none
  | none => if cs.isEmpty then some (.clause []) else none

end Statement

end DocSearch
