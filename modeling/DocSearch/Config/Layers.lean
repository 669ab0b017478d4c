import DocSearch.Config.Settings
import DocSearch.Number.Binary64
import DocSearch.Text.LowerCase

/-!
# Settings in layers

Settings come from a file and from variables of the environment, which stand over the file.  The
names of sections and keys do not depend on case.  A variable `SEARCH_RS__SECTION__KEY` sets one
key, to a text; the name of a variable, or of a section of the file, is a path of names and, in
brackets, of places in a list.  Since texts are all that a variable can hold, `Reader.lenient` takes
numbers and truth values for texts, and texts for numbers.

* `Settings.overlay` lays one table over another, field by field.
* `Settings.pathOf` reads a path, `Settings.setAt` sets the value at its end.
* `Settings.fileLayer` and `Settings.withVariables` put the two layers together in this way, and
  `Settings.load` reads the settings off the outcome.
-/

namespace DocSearch.Settings

/-! ## Laying one table over another -/

/-- The value of the field `name`. -/
def field? (fields : List (String × Value)) (name : String) : Option Value := fields.lookup name

/-- The fields with the one of `name` set to `v`, at its place if it is there already. -/
def setField (name : String) (v : Value) : List (String × Value) → List (String × Value)
  | [] => [(name, v)]
  | f :: fs => if f.1 = name then (name, v) :: fs else f :: setField name v fs

/-- The fields of a table, none if there is no table. -/
def fieldsOf : Option Value → List (String × Value)
  | some (.table fields) => fields
  | some (.openTable fields) => fields
  | _ => []

/-- The items of a list, none if there is no list. -/
def itemsOf : Option Value → List Value
  | some (.list items) => items
  | _ => []

/-- The items with what `f` makes of the one at `index`, counted from the end if it is negative.  A
list that is too short is filled up; a place before the first item is none. -/
def setItem (index : Int) (f : Option Value → Value) (items : List Value) : List Value :=
  let place := if index < 0 then items.length + index else index
  if place < 0 then items
  else
    let n := place.toNat
    (items ++ List.replicate (n + 1 - items.length) Value.null).set n (f items[n]?)

mutual

/-- A value laid over `old`: tables field by field, anything else in place of it. -/
def overlay (old : Option Value) : Value → Value
  | .table fields => .table (overlayFields (fieldsOf old) fields)
  | .openTable fields => .table (overlayFields (fieldsOf old) fields)
  | v => v

/-- Fields laid over the fields `old`, one by one. -/
def overlayFields (old : List (String × Value)) : List (String × Value) → List (String × Value)
  | [] => old
  | f :: fs => overlayFields (setField f.1 (overlay (field? old f.1) f.2) old) fs

end

mutual

/-- A value with the names of all fields in lower case, on every level. -/
def lowered : Value → Value
  | .table fields => .table (loweredFields [] fields)
  | .openTable fields => .table (loweredFields [] fields)
  | v => v

/-- Fields with their names in lower case, those of one name laid over each other; `done` are those
before them. -/
def loweredFields (done : List (String × Value)) : List (String × Value) → List (String × Value)
  | [] => done
  | f :: fs =>
    let name := Text.lower f.1
    loweredFields (setField name (overlay (field? done name) (lowered f.2)) done) fs

end

/-! ## Paths -/

/-- A step of a path. -/
inductive Step where
  | field (name : String)
  /-- to an item of a list, from the end if `index` is negative -/
  | item (index : Int)
deriving DecidableEq, Repr

/-- Whether `c` may stand in a name on a path. -/
def isPathLetter (c : Char) : Bool := c.isAlphanum || c == '_' || c == '-' || c == ' '

/-- An index, which a signed 64-bit word can hold, and what follows the bracket behind it; blanks
may stand around it. -/
def index? (cs : List Char) : Option (Int × List Char) := do
  let isGap := fun c => c == ' ' || c == '\t'
  let cs := cs.dropWhile isGap
  let negative := cs.head? == some '-'
  let cs := if negative then cs.tail else cs
  let (n, cs) ← Text.number? 1 cs.length cs
  let index : Int := if negative then -n else n
  if -9223372036854775808 ≤ index ∧ index < 9223372036854775808 then
    pure (index, ← Text.after? ']' (cs.dropWhile isGap))
  else none

/-- Steps, each behind its mark: a dot, or an opening bracket.  Every step takes a character, so
that `fuel` of as many as there are suffices. -/
def steps? : (fuel : Nat) → List Char → Option (List Step)
  | _, [] => some []
  | 0, _ => none
  | fuel + 1, '.' :: cs =>
    let name := cs.takeWhile isPathLetter
    if name.isEmpty then none
    else (steps? fuel (cs.dropWhile isPathLetter)).map (.field (String.ofList name) :: ·)
  | fuel + 1, '[' :: cs => do
    let (index, cs) ← index? cs
    (steps? fuel cs).map (.item index :: ·)
  | _, _ => none

/-- The path that `name` spells; a name that spells no path stands for itself. -/
def pathOf (name : String) : List Step :=
  (steps? (name.length + 1) ('.' :: name.toList)).getD [.field name]

/-- What a value becomes when the place at the end of a path in it is set to `v`.  What is in the
way is replaced; a field at the end of the path is laid over the one that is there. -/
def setAt (v : Value) : List Step → Option Value → Value
  | [], _ => v
  | [.field name], old =>
    let name := Text.lower name
    .table (setField name (overlay (field? (fieldsOf old) name) v) (fieldsOf old))
  | .field name :: path, old =>
    .table (setField name (setAt v path (field? (fieldsOf old) name)) (fieldsOf old))
  | .item index :: path, old => .list (setItem index (setAt v path) (itemsOf old))

/-! ## The layers -/

/-- The layer of a file: its sections in lower case, each at the path that its name spells. -/
def fileLayer (v : Value) : Value :=
  (fieldsOf (some v)).foldl (fun layer f =>
    setAt (lowered f.2) (pathOf f.1) (some layer)) (.table [])

/-- What the name of a variable that sets a key begins with, in lower case. -/
def variableStart : String := "search_rs__"

/-- A text with every pair of underscores replaced by a dot, as `pathOf` reads it. -/
def dotted : List Char → List Char
  | '_' :: '_' :: cs => '.' :: dotted cs
  | c :: cs => c :: dotted cs
  | [] => []

/-- The path that the variable `name` sets, if it begins with `variableStart`. -/
def variablePath? (name : String) : Option (List Step) :=
  let cs := (Text.lower name).toList
  if cs.take variableStart.length = variableStart.toList then
    some (pathOf (String.ofList (dotted (cs.drop variableStart.length))))
  else none

/-- The variables of the `environment` laid over `layer`, the later ones over the earlier ones. -/
def withVariables (environment : List (String × String)) (layer : Value) : Value :=
  environment.foldl (fun layer x =>
    match variablePath? x.1 with
    | some path => setAt (.text x.2) path (some layer)
    | none => layer) layer

/-! ## Reading leniently -/

/-- The text that a scalar is taken for. -/
def lenientText : Value → Option String
  | .text s => some s
  | .int n => some (toString n)
  | .bool b => some (if b then "true" else "false")
  | .decimal d => some (Binary64.ofDecimal d).text
  | .date s => some s
  | _ => none

/-- The word that the digits of a text write, a plus before them allowed. -/
def writtenWord? (cs : List Char) : Option UInt64 :=
  let ds := match cs with
    | '+' :: ds => ds
    | ds => ds
  if ds.isEmpty || !ds.all Char.isDigit then none
  else (Value.int (Text.valueOf ds)).asWord?

/-- The word that a scalar is taken for; `true`, `on` and `yes` are `1`. -/
def lenientWord : Value → Option UInt64
  | .int n => (Value.int n).asWord?
  | .bool b => some (if b then 1 else 0)
  | .decimal d => some (Binary64.ofDecimal d).roundToWord
  | .text s =>
    let word := Text.lower s
    if ["true", "on", "yes"].contains word then some 1
    else if ["false", "off", "no"].contains word then some 0
    else writtenWord? word.toList
  | _ => none

/-- The strategy that `v` names, in any case. -/
def lenientStrategy (v : Value) : Option CloudStrategy :=
  v.asCase?.bind fun c => CloudStrategy.ofLabel? (Text.lower c.1)

/-- The section that a table or a list states; unlike for `Record.ofDocument?`, a date is a text
here. -/
def lenientRecord? (names : List String) : Value → Option Record
  | .date _ => none
  | v => Record.ofDocument? names v

/-- The reader that takes scalars of any type. -/
def Reader.lenient : Reader := ⟨lenientText, lenientWord, lenientStrategy, lenientRecord?⟩

/-- The settings that the `text` of a file and the `environment` state. -/
def load (text : String) (environment : List (String × String)) : Except Failure Settings :=
  match (Toml.read? text).bind fun v =>
    ofValue? .lenient (withVariables environment (fileLayer v)) with
  | some s => .ok s
  | none => .error unreadable

example : variablePath? "Search_RS__Logging__LEVEL" = some [.field "logging", .field "level"] ∧
    variablePath? "SEARCH_RS_LOGGING__LEVEL" = none := by decide +kernel

example : pathOf "search[ -1].x" = [.field "search", .item (-1), .field "x"] ∧
    pathOf "search[x]" = [.field "search[x]"] := by decide +kernel

example : lenientWord (.text "Yes") = some 1 ∧ lenientWord (.text "+7") = some 7 ∧
    lenientWord (.text "-7") = none := by decide +kernel

end DocSearch.Settings
