import DocSearch.Index.Phrase
import DocSearch.Query.Automaton
import DocSearch.Query.Clause

/-!
# Conditions on documents

A `Condition` is what the index is asked, whether it comes from clauses or from a statement.
`Condition.holds` says of which documents it is true, `Condition.ranks` which of them can be ranked:
those where its phrases can be counted.  The two differ in phrases alone, so both are
`Condition.holdsBy` for a way to tell whether a text has a phrase.

`Clause.condition` gives the condition of a clause.  A `Target` says where it looks: a name that is
none of the index's own fields is that of a property, whose terms are `name=value`.  From there the
conditions of groups, of domains and of whole queries are put together (`Compiled.condition`).

`Condition.isSearchable` says whether the index can look for every pattern in a condition; a search
for one that it cannot look for fails as a whole.
-/

namespace DocSearch

/-- How a part of a boolean condition counts. -/
inductive Occur where
  | must
  | should
  | mustNot
deriving DecidableEq, Repr

/-- An end of a range of terms. -/
inductive Bound where
  | unbounded
  | included (term : String)
  | excluded (term : String)
deriving DecidableEq, Repr

namespace Bound

/-- Whether the term `t` is not below the end `b`. -/
def admitsAbove (b : Bound) (t : String) : Bool :=
  match b with
  | unbounded => true
  | included lower => lower ≤ t
  | excluded lower => lower < t

/-- Whether the term `t` is not above the end `b`. -/
def admitsBelow (b : Bound) (t : String) : Bool :=
  match b with
  | unbounded => true
  | included upper => t ≤ upper
  | excluded upper => t < upper

end Bound

/-- What a document is asked. -/
inductive Condition where
  | everything
  /-- `field` has `term`; `counted` says that it weighs more the more often it stands there. -/
  | term (field : Field) (term : String) (counted : Bool)
  /-- A term of `field` fits `pattern`. -/
  | pattern (field : Field) (pattern : List Wildcard.Piece)
  /-- A term of `field` lies between the ends. -/
  | range (field : Field) (lower upper : Bound)
  /-- `field` has one of the `terms`. -/
  | oneOf (field : Field) (terms : List String)
  | phrase (field : Field) (phrase : Phrase)
  /-- `field` has the `words` without a gap and, at a `position` behind them, one of the `terms`. -/
  | opening (field : Field) (words : List Token) (position : Nat) (terms : List String)
  /-- The condition `c`, weighing `factor` times as much. -/
  | scaled (c : Condition) (factor : Float32)
  /-- All parts that `must` hold do, none that `mustNot`, and at least one part holds. -/
  | parts (ps : List (Occur × Condition))

instance : Inhabited Condition := ⟨.parts []⟩

/-- Whether a boolean condition is true, given in `results` which of its parts are. -/
def Occur.combine (results : List (Occur × Bool)) : Bool :=
  (results.all fun
    | (.must, holds) => holds
    | (.mustNot, holds) => !holds
    | (.should, _) => true) &&
  results.any fun
    | (.must, _) => true
    | (.should, holds) => holds
    | (.mustNot, _) => false

namespace Condition

/-- The condition that no document meets: it has no part that could hold. -/
def nothing : Condition := .parts []

/-- The condition that all of `cs` are met. -/
def allOf (cs : List Condition) : Condition := .parts (cs.map (.must, ·))

/-- The condition that some of `cs` are met. -/
def anyOf (cs : List Condition) : Condition := .parts (cs.map (.should, ·))

mutual

/-- Whether the document `d` meets a condition, `has` saying which texts have a phrase. -/
def holdsBy (has : Phrase → List Token → Bool) (d : Document) : Condition → Bool
  | .everything => true
  | .term f t _ => (d.terms f).contains t
  | .pattern f p => (d.terms f).any fun t => Wildcard.fits p t.toList
  | .range f lower upper => (d.terms f).any fun t => lower.admitsAbove t && upper.admitsBelow t
  | .oneOf f ts => (d.terms f).any ts.contains
  | .phrase f p => has p (d.tokens f)
  | .opening f words position terms => Phrase.leadsTo words position terms (d.tokens f)
  | .scaled c _ => holdsBy has d c
  | .parts ps => Occur.combine (holdsEachBy has d ps)

/-- For each part of a boolean condition, whether `d` meets it. -/
def holdsEachBy (has : Phrase → List Token → Bool) (d : Document) :
    List (Occur × Condition) → List (Occur × Bool)
  | [] => []
  | p :: ps => (p.1, holdsBy has d p.2) :: holdsEachBy has d ps

end

/-- Whether the document `d` meets the condition `c`: whether it is found by it. -/
def holds (d : Document) (c : Condition) : Bool := c.holdsBy Phrase.occurs d

/-- Whether the document `d` can be ranked by `c`: whether it meets it if a text has a phrase as
often as `Phrase.count` says. -/
def ranks (d : Document) (c : Condition) : Bool := c.holdsBy (fun p text => 0 < p.count text) d

mutual

/-- The patterns in a condition, however deep they stand. -/
def patterns : Condition → List (List Wildcard.Piece)
  | .pattern _ p => [p]
  | .scaled c _ => patterns c
  | .parts ps => partPatterns ps
  | _ => []

/-- The patterns in some parts, see `patterns`. -/
def partPatterns : List (Occur × Condition) → List (List Wildcard.Piece)
  | [] => []
  | p :: ps => patterns p.2 ++ partPatterns ps

end

/-- Whether the index can look for every pattern in `c`; equal patterns are looked at once. -/
def isSearchable (c : Condition) : Bool := c.patterns.eraseDups.all Wildcard.isSearchable

end Condition

/-! ## The conditions of clauses -/

/-- Where the field that a clause names is found in the index. -/
inductive Target where
  | field (f : Field)
  /-- the terms `name=value` of the property field -/
  | property (name : String)
deriving DecidableEq, Repr

namespace Target

/-- The place of the field `name` of a clause; property names do not count capitals. -/
def of (name : String) : Target :=
  match Field.ofClause? name with
  | some f => .field f
  | none => .property (Text.lower name)

/-- The field of the index that has the terms of a `Target`. -/
def indexField : Target → Field
  | field f => f
  | property _ => .property

/-- What stands before the value in a term: nothing, or `name=`. -/
def lead : Target → String
  | field _ => ""
  | property name => name ++ "="

/-- The condition that `value` is among those of the field.  A property is asked for its lower case,
a field of the index for the value as it stands. -/
def exactly (t : Target) (value : String) : Condition :=
  match t with
  | field f => .term f value false
  | property name => .term .property (propertyTerm name (Text.lower value)) false

/-- The condition that a value of the field fits `pattern`, the `lead` being read literally. -/
def fitting (t : Target) (pattern : String) : Condition :=
  .pattern t.indexField (Wildcard.literally t.lead ++ Wildcard.pattern pattern)

/-- The regular expression that the index is given for `pattern`; for a property it begins with the
escaped name and an equals sign. -/
def regex (t : Target) (pattern : String) : String :=
  match t with
  | field _ => Wildcard.regexOf pattern
  | property name => Wildcard.escaped (name ++ "=") ++ Wildcard.regexOf pattern

/-- The condition that a term of the field lies between the keys of two days. -/
def between (t : Target) (first last : Day) : Condition :=
  .range t.indexField (.included (t.lead ++ first.key)) (.included (t.lead ++ last.key))

end Target

/-- The condition that the conditions `cs` are joined to; without any, all are met or none is. -/
def Combinator.join (c : Combinator) (cs : List Condition) : Condition :=
  match c, cs with
  | .all, [] => .everything
  | .all, cs => .allOf cs
  | .any, cs => .anyOf cs

mutual

/-- The condition of a clause; those in a group are joined by its combinator. -/
def Clause.condition : Clause → Condition
  | .exact field value => (Target.of field).exactly value
  | .wildcard field pattern => (Target.of field).fitting pattern
  | .range field first last => (Target.of field).between first last
  | .group combinator clauses => combinator.join (Clause.conditions clauses)

/-- The conditions of some clauses, one by one. -/
def Clause.conditions : List Clause → List Condition
  | [] => []
  | c :: cs => c.condition :: Clause.conditions cs

end

/-- The condition of the group `g`. -/
def Group.condition (g : Group) : Condition := g.combinator.join (Clause.conditions g.clauses)

/-- The kinds of entities in a domain; attachments are documents. -/
def Domain.kinds : Domain → List EntityKind
  | .document => [.document, .attachment]
  | .folder => [.folder]
  | .mail => [.mail]

/-- The condition that an entity belongs to the domain `d`. -/
def Domain.condition (d : Domain) : Condition :=
  .anyOf (d.kinds.map fun k => .term .kind k.label false)

/-- The condition of a domain query: the domain and the group of clauses. -/
def DomainQuery.condition (q : DomainQuery) : Condition :=
  .allOf [q.domain.condition, q.group.condition]

/-- The condition of a compiled query: that of one of its domains. -/
def Compiled.condition (c : Compiled) : Condition := .anyOf (c.domains.map (·.condition))

end DocSearch
