import DocSearch.Calendar.DayReader
import DocSearch.Data.Record
import DocSearch.Query.Description
import DocSearch.Query.Encoding

/-!
# Clauses

A description is compiled into one group of clauses per domain.  A `Clause` asks something of one
field, or is a group of clauses of which all, or any, must hold; a `Compiled` query finds what the
group of any of its domains finds there.

Clauses are written as data with one field that names the case (`Clause.toValue`).  They nest, so
the reader has a `fuel`, for which the depth of the value is enough (`Group.ofValue?`).
-/

namespace DocSearch

/-- How the members of a group are joined. -/
inductive Combinator where
  /-- every member must hold -/
  | all
  /-- at least one member must hold -/
  | any
deriving DecidableEq, Repr

/-- A condition on the fields of an entity. -/
inductive Clause where
  /-- `value` is among those of `field` -/
  | exact (field value : String)
  /-- a value of `field` fits `pattern`: `*` stands for any run of characters, `?` for one -/
  | wildcard (field pattern : String)
  /-- a day of `field` lies between two days, both included -/
  | range (field : String) (first last : Day)
  | group (combinator : Combinator) (clauses : List Clause)

/-- Clauses and how they are joined. -/
structure Group where
  combinator : Combinator
  clauses : List Clause

/-- The clauses for one domain. -/
structure DomainQuery where
  domain : Domain
  group : Group

/-- A compiled query: it finds what any of its domain queries finds. -/
structure Compiled where
  domains : List DomainQuery

instance : Inhabited Clause := ⟨.group .all []⟩
instance : Inhabited Group := ⟨⟨.all, []⟩⟩
instance : Inhabited Compiled := ⟨⟨[]⟩⟩

namespace Group

/-- The group of `clauses` that must all hold. -/
def all (clauses : List Clause) : Group := ⟨.all, clauses⟩

/-- The group of `clauses` of which one must hold. -/
def any (clauses : List Clause) : Group := ⟨.any, clauses⟩

/-- The group `g` as a clause. -/
def clause (g : Group) : Clause := .group g.combinator g.clauses

end Group

namespace Compiled

/-- The group for the domain `d`, if the query asks for it. -/
def group? (c : Compiled) (d : Domain) : Option Group :=
  (c.domains.find? (·.domain = d)).map (·.group)

/-- The whole query `c` as one group, of one member for each domain. -/
def toGroup (c : Compiled) : Group := .any (c.domains.map (·.group.clause))

end Compiled

/-! ## Clauses as data -/

namespace Combinator

/-- The word for a combinator. -/
def label : Combinator → String
  | all => "All"
  | any => "Any"

/-- The combinator that `v` names, by its word alone or as a table with that one field, `null`. -/
def ofValue? (v : Value) : Option Combinator := do
  match ← v.asCase? with
  | ("All", .null) => some all
  | ("Any", .null) => some any
  | _ => none

end Combinator

open Calendar in
/-- A day written with dashes, blanks around its parts skipped. -/
def Day.readSpaced? (cs : List Char) : Option Day := do
  let (year, cs) ← year? cs
  let (month, cs) ← pair? (← mark? '-' cs)
  let (day, cs) ← pair? (← mark? '-' cs)
  if (Text.trimStart Text.isBlank cs).isEmpty then of? year month day else none

/-- The day that `v` states, as `2024-03-15`. -/
def Day.ofValue? (v : Value) : Option Day := v.asText?.bind fun s => readSpaced? s.toList

mutual

/-- A clause as data, a table with the one field of its case. -/
def Clause.toValue : Clause → Value
  | .exact field value => .table
    [("Exact", .table [("field", .text field), ("value", .text value)])]
  | .wildcard field pattern =>
    .table [("Wildcard", .table [("field", .text field), ("pattern", .text pattern)])]
  | .range field first last => .table [("Range", .table [("field", .text field),
      ("from", .text first.iso), ("to", .text last.iso)])]
  | .group combinator clauses => .table [("Group", .table [("combinator", .text combinator.label),
      ("clauses", .list (Clause.toValues clauses))])]

/-- Clauses as data, see `Clause.toValue`. -/
def Clause.toValues : List Clause → List Value
  | [] => []
  | c :: cs => c.toValue :: Clause.toValues cs

end

/-- The group `g` as data. -/
def Group.toValue (g : Group) : Value := .table [("combinator", .text g.combinator.label),
  ("clauses", .list (Clause.toValues g.clauses))]

/-- The domain query `d` as data. -/
def DomainQuery.toValue (d : DomainQuery) : Value :=
  .table [("domain", .text d.domain.label), ("group", d.group.toValue)]

/-- The compiled query `c` as data. -/
def Compiled.toValue (c : Compiled) : Value :=
  .table [("domains", .list (c.domains.map (·.toValue)))]

mutual

/-- The clause that a value states; `fuel` bounds the depth of groups. -/
def Clause.ofValue? : (fuel : Nat) → Value → Option Clause
  | 0, _ => none
  | fuel + 1, v => do
    match ← v.asCase? with
    | ("Exact", v) =>
      let r ← Record.of? ["field", "value"] v
      pure (.exact (← r.required "field" Value.asText?) (← r.required "value" Value.asText?))
    | ("Wildcard", v) =>
      let r ← Record.of? ["field", "pattern"] v
      pure (.wildcard (← r.required "field" Value.asText?) (← r.required "pattern" Value.asText?))
    | ("Range", v) =>
      let r ← Record.of? ["field", "from", "to"] v
      pure (.range (← r.required "field" Value.asText?) (← r.required "from" Day.ofValue?)
        (← r.required "to" Day.ofValue?))
    | ("Group", v) => (Group.read? fuel v).map Group.clause
    | _ => none

/-- The group that a value states; `fuel` bounds the depth of groups. -/
def Group.read? : (fuel : Nat) → Value → Option Group
  | 0, _ => none
  | fuel + 1, v => do
    let r ← Record.of? ["combinator", "clauses"] v
    let combinator ← r.required "combinator" Combinator.ofValue?
    let clauses ← r.required "clauses" fun v => v.asList?.bind (·.mapM (Clause.ofValue? fuel))
    pure ⟨combinator, clauses⟩

end

/-- The group that `v` states, however deep. -/
def Group.ofValue? (v : Value) : Option Group := Group.read? (v.depth + 1) v

/-- The domain query that `v` states. -/
def DomainQuery.ofValue? (v : Value) : Option DomainQuery := do
  let r ← Record.of? ["domain", "group"] v
  pure ⟨← r.required "domain" Domain.ofValue?, ← r.required "group" Group.ofValue?⟩

/-- The compiled query that `v` states. -/
def Compiled.ofValue? (v : Value) : Option Compiled := do
  let r ← Record.of? ["domains"] v
  pure ⟨← r.required "domains" fun v => v.asList?.bind (·.mapM DomainQuery.ofValue?)⟩

end DocSearch
