import DocSearch.Data.Value

/-!
# Records

A record with known field names is written as a table, its fields in any order, or as a list, its
fields in the order of the names.  In a table, names that are not known do not count and a known
name may stand once.  A list may stop early; `Record.of?` refuses one that is too long,
`Record.ofDocument?` does not look at what is left over.

What is read of a field is said where the record is read, in one of four ways: `Record.required`,
`Record.withDefault`, `Record.optional` and `Record.nullable`.  They differ in what stands for a
field that was not given.  All readers of the data of requests, entities, schemas and settings are
put together from these.
-/

namespace DocSearch

/-- The fields of a record that were given, by name. -/
structure Record where
  /-- Whether the fields were given by name and not by place. -/
  named : Bool
  fields : List (String × Value)

namespace Record

/-- Whether no name is given twice. -/
def distinctNames : List (String × Value) → Bool
  | [] => true
  | f :: fs => !(fs.any (·.1 == f.1)) && distinctNames fs

/-- The record of `fields` given by name, `names` being the known ones. -/
def ofFields? (names : List String) (fields : List (String × Value)) : Option Record :=
  let known := fields.filter fun f => names.contains f.1
  if distinctNames known then some ⟨true, known⟩ else none

/-- The record of `items` given by place, `names` being the known fields in order. -/
def ofItems (names : List String) (items : List Value) : Record := ⟨false, names.zip items⟩

/-- The record that a value states, `names` being the known fields in order. -/
def of? (names : List String) : Value → Option Record
  | .table fields => ofFields? names fields
  | .openTable fields => ofFields? names fields
  | .list items => if items.length ≤ names.length then some (ofItems names items) else none
  | _ => none

/-- The record that a value of a TOML document states.  Unlike in `of?`, a list may be too long, and
a date counts as a table without a known field. -/
def ofDocument? (names : List String) : Value → Option Record
  | .list items => some (ofItems names items)
  | .date _ => ofFields? names []
  | v => of? names v

/-- The value given for the field `name`. -/
def get? (r : Record) (name : String) : Option Value := r.fields.lookup name

variable {α : Type}

/-- A field that must be given; what `read` makes of its value. -/
def required (r : Record) (name : String) (read : Value → Option α) : Option α :=
  (r.get? name).bind read

/-- A field that may be left out, `default` standing for it. -/
def withDefault (r : Record) (name : String) (default : α) (read : Value → Option α) : Option α :=
  match r.get? name with
  | some v => read v
  | none => some default

/-- A field that may be left out or `null`; for both it is `none`. -/
def optional (r : Record) (name : String) (read : Value → Option α) : Option (Option α) :=
  r.withDefault name none (Value.asOption? read)

/-- A field that may be `null`, and may be left out if the fields are given by name. -/
def nullable (r : Record) (name : String) (read : Value → Option α) : Option (Option α) :=
  match r.get? name with
  | some v => Value.asOption? read v
  | none => if r.named then some none else none

end Record

/-- The case that a value names: a text, or a table with the one field of that name. -/
def Value.asCase? : Value → Option (String × Value)
  | .text s => some (s, .null)
  | .table [(name, v)] => some (name, v)
  | .openTable [(name, v)] => some (name, v)
  | _ => none

end DocSearch
