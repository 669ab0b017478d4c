import DocSearch.Data.Value

/-!
# Tables under construction

A TOML text builds its tree piece by piece: a header opens a table, a line fills one field, and a
dotted key makes the tables on its way.  A `Node` remembers how a table came to be (`Origin`),
because that decides what may still be added: a table opened by a header is opened once, one made by
dotted keys grows by dotted keys only, and one made in passing by a longer header may still be
opened.

`descend` goes to the end of a path; `assign`, `openTable` and `openItem` say what is done there for
a line, a header and a double header.  All of them are `none` where the text defines something
twice.
-/

namespace DocSearch.Toml

/-- How a table came to be. -/
inductive Origin where
  /-- opened by a header of its own -/
  | opened
  /-- made in passing by a longer header -/
  | passed
  /-- made by a dotted key -/
  | dotted
deriving DecidableEq

/-- A place in the tree. -/
inductive Node where
  | leaf (v : Value)
  | table (origin : Origin) (fields : List (String × Node))
  /-- A list of tables, each opened by a double header. -/
  | tables (items : List Node)

/-- The fields of a table under construction. -/
abbrev Fields := List (String × Node)

/-- The fields with the one named `name` replaced by what `f` makes of it, or added at the end. -/
def Fields.update (name : String) (f : Option Node → Option Node) : Fields → Option Fields
  | [] => (f none).map fun n => [(name, n)]
  | e :: es =>
    if e.1 = name then (f (some e.2)).map fun n => (name, n) :: es
    else (update name f es).map (e :: ·)

/-- Applies `f` to the last of some tables. -/
def updateLast (f : Node → Option Node) : List Node → Option (List Node)
  | [] => none
  | [n] => (f n).map ([·])
  | n :: ns => (updateLast f ns).map (n :: ·)

/-- Applies `f` to the table at the end of a path, making the tables that are missing.  `byKey` says
that the path is that of a dotted key, which must not enter a table opened by a header. -/
def descend (byKey : Bool) (f : Origin → Fields → Option Node) :
    List String → Origin → Fields → Option Node
  | [], origin, fields => f origin fields
  | name :: path, origin, fields =>
    let enter (n : Node) : Option Node :=
      match n with
      | .table origin fields =>
        if byKey && origin = .opened then none else descend byKey f path origin fields
      | _ => none
    (Fields.update name (fun
      | none => descend byKey f path (if byKey then .dotted else .passed) []
      | some (.leaf _) => none
      | some (.table origin fields) => enter (.table origin fields)
      | some (.tables items) =>
        (updateLast (fun
          | .table origin fields => descend byKey f path origin fields
          | _ => none) items).map .tables) fields).map (.table origin)

/-- Adds the field `name` to a table; `direct` says that the key had no dots. -/
def addField (direct : Bool) (name : String) (v : Value) (origin : Origin) (fields : Fields) :
    Option Node :=
  if (origin = .dotted) = direct then none
  else (Fields.update name (fun | none => some (.leaf v) | some _ => none) fields).map
    (.table origin)

/-- Adds the field of a dotted key to the table at the end of the path `table`. -/
def assign (table key : List String) (name : String) (v : Value) (root : Fields) : Option Node :=
  descend false (fun origin fields =>
    descend true (addField key.isEmpty name v) key origin fields) table .opened root

/-- Opens the table of a header, `name` being the last part of it. -/
def openTable (path : List String) (name : String) (root : Fields) : Option Node :=
  descend false (fun origin fields =>
    (Fields.update name (fun
      | none => some (.table .opened [])
      | some (.table .passed fields) => some (.table .opened fields)
      | _ => none) fields).map (.table origin)) path .opened root

/-- Opens one more table of a list, for a double header. -/
def openItem (path : List String) (name : String) (root : Fields) : Option Node :=
  descend false (fun origin fields =>
    (Fields.update name (fun
      | none => some (.tables [.table .opened []])
      | some (.tables items) => some (.tables (items ++ [.table .opened []]))
      | _ => none) fields).map (.table origin)) path .opened root

mutual

/-- The value of a finished tree, `make` saying what kind of table its tables are. -/
def Node.toValue (make : List (String × Value) → Value) : Node → Value
  | .leaf v => v
  | .table _ fields => make (Node.toFields make fields)
  | .tables items => .list (Node.toItems make items)

/-- The values of finished fields, see `Node.toValue`. -/
def Node.toFields (make : List (String × Value) → Value) :
    List (String × Node) → List (String × Value)
  | [] => []
  | (name, n) :: fs => (name, n.toValue make) :: Node.toFields make fs

/-- The values of finished tables, see `Node.toValue`. -/
def Node.toItems (make : List (String × Value) → Value) : List Node → List Value
  | [] => []
  | n :: ns => n.toValue make :: Node.toItems make ns

end

end DocSearch.Toml
