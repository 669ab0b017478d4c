import DocSearch.Query.Clause
import DocSearch.Index.Field
import DocSearch.Text.Alphanumeric
import DocSearch.Text.Blank
import DocSearch.Text.LowerCase

/-!
# Excerpts

An excerpt shows a text around the first place where a searched term stands.  The place is looked
for in the lower-case text and then counted off in the text itself (`Excerpt.place`), although the
two need not be equally long.  The window begins at a word not more than fifty characters before the
place (`Excerpt.start`), and ends at a blank if the text goes on (`Excerpt.stop?`), even if that
blank stands before the place.

Positions are 64-bit words: a window whose end is no such word does not exist, and `Excerpt.create?`
is then `none`; this is where the program stops.  A blank text has no excerpt, which is another
outcome (`some none`).

Which terms are looked for is read off the query: what its patterns for words say literally
(`Excerpt.termsOfCompiled`), or the words of a statement (`Excerpt.termsOfStatement`).
-/

namespace DocSearch.Excerpt

/-- How far before the place found a window may begin. -/
def lead : Nat := 50

/-- The first place where `term` stands in `text`; an empty term stands everywhere. -/
def find? (term : List Char) : (text : List Char) → Option Nat
  | [] => if term.isEmpty then some 0 else none
  | c :: cs => if term.isPrefixOf (c :: cs) then some 0 else (find? term cs).map (· + 1)

/-- The first place where any of the `terms` stands. -/
def firstPlace? (terms : List (List Char)) (text : List Char) : Option Nat :=
  (terms.filterMap (find? · text)).min?

/-- The last place of a character of class `p`. -/
def lastPlace? (p : Char → Bool) (cs : List Char) : Option Nat :=
  match cs.reverse.findIdx? p with
  | some i => some (cs.length - 1 - i)
  | none => none

/-- The place in `text` that stands for the first of the `terms`; its start if none is found. -/
def place (terms : List (List Char)) (text : List Char) : Nat :=
  match firstPlace? terms (Text.lowerWords text) with
  | some i => min i text.length
  | none => 0

/-- Where the window begins: behind a blank at most `lead` before `place`, if there is one. -/
def start (text : List Char) (place : Nat) : Nat :=
  if place ≤ lead then 0
  else
    match lastPlace? Text.isBlank (text.take place) with
    | some i => if place - i ≤ lead then i + 1 else place - lead
    | none => place - lead

/-- Where the window of `length` characters from `start` ends, if that is a 64-bit word: at its last
blank, if the text goes on. -/
def stop? (text : List Char) (start length : Nat) : Option Nat :=
  if 18446744073709551616 ≤ start + length then none
  else
    let stop := min (start + length) text.length
    if stop < text.length then
      match lastPlace? Text.isBlank ((text.take stop).drop start) with
      | some i => some (if 0 < i then start + i else stop)
      | none => some stop
    else some stop

/-- The dots for text that is left out. -/
def dots (omitted : Bool) : List Char := if omitted then ['.', '.', '.'] else []

/-- The excerpt of `body` of at most `length` characters, dots not counted: `none` for a window that
does not exist, and `some none` for a blank text. -/
def create? (body : String) (terms : List String) (length : Nat) : Option (Option String) :=
  let text := Text.trim Text.isBlank body.toList
  if text.isEmpty then some none
  else
    let first := start text (place (terms.map (·.toList)) text)
    (stop? text first length).map fun last =>
      some (String.ofList (dots (0 < first) ++
        Text.trim Text.isBlank ((text.take last).drop first) ++ dots (last < text.length)))

/-! ## The terms shown -/

mutual

/-- The terms of a clause that asks for words of a text: its pattern without `*` and `?`. -/
def termsOfClause : Clause → List String
  | .wildcard field pattern =>
    if field = Field.text.label ∨ field = Field.content.label then
      let term := pattern.toList.filter fun c => c ≠ '*' && c ≠ '?'
      if term.isEmpty then [] else [String.ofList term]
    else []
  | .group _ clauses => termsOfClauses clauses
  | _ => []

/-- The terms of some clauses, see `termsOfClause`. -/
def termsOfClauses : List Clause → List String
  | [] => []
  | c :: cs => termsOfClause c ++ termsOfClauses cs

end

/-- The terms shown for the compiled query `c`, those of all its domains. -/
def termsOfCompiled (c : Compiled) : List String :=
  c.domains.flatMap fun d => termsOfClauses d.group.clauses

/-- The terms shown for `statement`: its words in lower case, without the marks around them. -/
def termsOfStatement (statement : String) : List String :=
  (Text.words statement).filterMap fun w =>
    let t := Text.trim (fun c => !Text.isAlphanumeric c) w.toList
    if t.isEmpty then none else some (String.ofList (Text.lowerWords t))

end DocSearch.Excerpt
