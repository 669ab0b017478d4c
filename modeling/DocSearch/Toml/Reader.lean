import DocSearch.Toml.Scalar
import DocSearch.Toml.Tree

/-!
# Reading TOML

`Toml.read?` reads a document: headers and fields line by line (`Toml.lines?`), each added to the
tree of `Node`s, which refuses what would define something twice.  Lists and tables must not be
nested too deeply, nor keys have too many parts (`Toml.nestingLimit`).

A value is read whole before it is added: scalars by the readers of the scalars, lists and tables on
one line by `Toml.value?` and the two readers that it calls.  Every one of them takes a character at
least, so that a `fuel` of as many as there are is enough.
-/

namespace DocSearch.Toml

/-- The number of levels of lists and tables, and of parts of a key, that is too great. -/
def nestingLimit : Nat := 80

/-- What follows the blanks within a line. -/
def skipGap (cs : List Char) : List Char := cs.dropWhile isGap

/-- What follows a comment, if the text begins with one; its characters must be plain. -/
def skipComment? : List Char → Option (List Char)
  | '#' :: cs =>
    let rest := cs.dropWhile isPlain
    match rest with
    | [] => some []
    | '\n' :: _ => some rest
    | _ => none
  | cs => some cs

/-- What follows the end of a line: blanks, a comment, and a line end or the end of the text. -/
def lineEnd? (cs : List Char) : Option (List Char) := do
  match ← skipComment? (skipGap cs) with
  | [] => some []
  | '\n' :: cs => some cs
  | _ => none

/-- What follows blanks, comments and line ends; `fuel` bounds the number of lines. -/
def skipLines? : (fuel : Nat) → List Char → Option (List Char)
  | 0, _ => none
  | fuel + 1, cs => do
    match ← skipComment? (skipGap cs) with
    | '\n' :: cs => skipLines? fuel cs
    | cs => some cs

/-- The characters of keys without quotes. -/
def isKeyChar (c : Char) : Bool := c.isAlphanum || c = '_' || c = '-'

/-- One part of a key, in quotes or bare. -/
def keyPart? (cs : List Char) : Option (String × List Char) :=
  match keyText? cs with
  | some (name, cs) => some (String.ofList name, cs)
  | none =>
    let name := cs.takeWhile isKeyChar
    if name.isEmpty then none else some (String.ofList name, cs.dropWhile isKeyChar)

/-- Parts with points between them.  Answers the last part and those before it. -/
def keyParts? : (fuel : Nat) → List Char → Option ((List String × String) × List Char)
  | 0, _ => none
  | fuel + 1, cs => do
    let (part, cs) ← keyPart? (skipGap cs)
    match skipGap cs with
    | '.' :: cs => (keyParts? fuel cs).map fun r => ((part :: r.1.1, r.1.2), r.2)
    | cs => some (([], part), cs)

/-- A key of less than `nestingLimit` parts. -/
def key? (cs : List Char) : Option ((List String × String) × List Char) := do
  let (key, cs) ← keyParts? (cs.length + 1) cs
  if key.1.length + 1 < nestingLimit then some (key, cs) else none

mutual

/-- A value below `level` lists and tables. -/
def value? (level : Nat) : (fuel : Nat) → List Char → Option (Value × List Char)
  | 0, _ => none
  | fuel + 1, cs =>
    match cs with
    | '[' :: cs =>
      if level + 1 < nestingLimit then (items? (level + 1) fuel cs).map fun r => (.list r.1, r.2)
      else none
    | '\x7b' :: cs =>
      if level + 1 < nestingLimit then
        match skipGap cs with
        | '\x7d' :: cs => some (.table [], cs)
        | cs => do
          let (root, cs) ← fields? (level + 1) fuel [] cs
          pure (.table (Node.toFields .table root), cs)
      else none
    | '\x22' :: _ => (text? cs).map fun r => (.text (String.ofList r.1), r.2)
    | '\x27' :: _ => (text? cs).map fun r => (.text (String.ofList r.1), r.2)
    | cs => bare? cs

/-- The items of a list and its end; comments and line ends may stand between them. -/
def items? (level : Nat) : (fuel : Nat) → List Char → Option (List Value × List Char)
  | 0, _ => none
  | fuel + 1, cs => do
    match ← skipLines? (cs.length + 1) cs with
    | ']' :: cs => some ([], cs)
    | cs =>
      let (v, cs) ← value? level fuel cs
      match ← skipLines? (cs.length + 1) cs with
      | ',' :: cs => (items? level fuel cs).map fun r => (v :: r.1, r.2)
      | ']' :: cs => some ([v], cs)
      | _ => none

/-- The fields of a table on one line and its end, added to those in `root`. -/
def fields? (level : Nat) : (fuel : Nat) → Fields → List Char → Option (Fields × List Char)
  | 0, _, _ => none
  | fuel + 1, root, cs => do
    let ((path, name), cs) ← key? cs
    match cs with
    | '=' :: cs =>
      let (v, cs) ← value? level fuel (skipGap cs)
      match ← assign [] path name v root with
      | .table _ root =>
        match skipGap cs with
        | ',' :: cs => fields? level fuel root cs
        | '\x7d' :: cs => some (root, cs)
        | _ => none
      | _ => none
    | _ => none

end

/-- The fields of a root table. -/
def Node.fields? : Node → Option Fields
  | .table _ fields => some fields
  | _ => none

/-- Reads line after line.  `table` is the path of the table that fields go to. -/
def lines? : (fuel : Nat) → (table : List String) → Fields → List Char → Option Fields
  | 0, _, _, _ => none
  | fuel + 1, table, root, cs => do
    match ← skipLines? (cs.length + 1) cs with
    | [] => some root
    | '[' :: '[' :: cs =>
      let ((path, name), cs) ← key? cs
      match cs with
      | ']' :: ']' :: cs =>
        let root ← (← openItem path name root).fields?
        lines? fuel (path ++ [name]) root (← lineEnd? cs)
      | _ => none
    | '[' :: cs =>
      let ((path, name), cs) ← key? cs
      match cs with
      | ']' :: cs =>
        let root ← (← openTable path name root).fields?
        lines? fuel (path ++ [name]) root (← lineEnd? cs)
      | _ => none
    | cs =>
      let ((path, name), cs) ← key? cs
      match cs with
      | '=' :: cs =>
        let (v, cs) ← value? 0 (2 * cs.length + 1) (skipGap cs)
        let root ← (← assign table path name v root).fields?
        lines? fuel table root (← lineEnd? cs)
      | _ => none

/-- Line ends of two characters made one. -/
def unifyLineEnds : List Char → List Char
  | '\r' :: '\n' :: cs => '\n' :: unifyLineEnds cs
  | c :: cs => c :: unifyLineEnds cs
  | [] => []

/-- A text without a byte order mark at its front. -/
def dropMark : List Char → List Char
  | '\uFEFF' :: cs => cs
  | cs => cs

/-- The table that the TOML text `s` states. -/
def read? (s : String) : Option Value :=
  let cs := unifyLineEnds (dropMark s.toList)
  (lines? (cs.length + 1) [] [] cs).map fun root => .table (Node.toFields .openTable root)

end DocSearch.Toml
