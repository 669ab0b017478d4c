import DocSearch.Index.Field
import DocSearch.Property.Schema
import DocSearch.Query.Clause
import DocSearch.Query.Wildcard
import DocSearch.Repository.Scope
import DocSearch.Text.LowerCase

/-!
# Compiling a description

Each domain has clauses of its own (`Description.ownClauses`); keywords, categories and properties
are asked for in every domain (`Description.commonClauses`).  What is missing or blank gives no
clause, so a description that asks for nothing compiles to the domains alone.

A filter on a property is read by the kind of its field (`Description.propertyClauses`): as a value,
as a list of options, as words, or as two days.  A filter that lists several values asks for all of
them.  A property that the schema does not know, and a date filter that is no pair of days, ask for
nothing.

Texts are put in lower case here as running texts are (`Text.lower`); the index does so character by
character.
-/

namespace DocSearch

namespace Description

open Text

/-- A pattern in `field` for every word of `value`. -/
def wordClauses (field value : String) : List Clause :=
  (words value).map fun w => .wildcard field (lower w)

/-- The pattern for `name`: without wildcards, the name may stand anywhere. -/
def nameClause (name : String) : Clause :=
  .wildcard Field.name.label
    (lower (if Wildcard.hasWildcard name then name else "*" ++ name ++ "*"))

/-- The top-level area that `path` names: without blanks and slashes around it, in lower case. -/
def contextOf (path : String) : String :=
  lower (String.ofList (trim (· == '/') (trim isBlank path.toList)))

/-- The clause for `path`: one of the folders it covers, or its top-level area if it is not
expanded. -/
def pathClause (path : String) (scope : Scope) : Clause :=
  if scope.isEmpty then .wildcard Field.context.label (contextOf path)
  else .group .any (scope.folders.toList.map (.exact Field.parent.label))

/-- What a field of a description asks for, if its `value` is not blank. -/
def asked (value : Option String) (clauses : String → List Clause) : List Clause :=
  match value.bind nonBlank? with
  | some v => clauses v
  | none => []

/-- The clause for the last change, if `q` gives both bounds. -/
def lastModifiedClauses (q : Description) : List Clause :=
  match q.lastModifiedFrom, q.lastModifiedTo with
  | some first, some last => [.range Field.lastModified.label first.day last.day]
  | _, _ => []

/-- The clauses of `q` for documents. -/
def documentClauses (q : Description) (scope : Scope) : List Clause :=
  asked q.content (wordClauses Field.text.label) ++
  asked q.name (fun v => [nameClause v]) ++
  asked q.path (fun v => [pathClause v scope]) ++
  asked q.mimeType (fun v => [.exact Field.mimeType.label v]) ++
  asked q.author (fun v => [.exact Field.author.label v]) ++
  q.lastModifiedClauses

/-- The clauses of `q` for folders, which have neither content nor author. -/
def folderClauses (q : Description) (scope : Scope) : List Clause :=
  asked q.name (fun v => [nameClause v]) ++
  asked q.path (fun v => [pathClause v scope])

/-- The clauses of `q` for mails. -/
def mailClauses (q : Description) (scope : Scope) : List Clause :=
  asked q.path (fun v => [pathClause v scope]) ++
  asked q.content (wordClauses Field.content.label) ++
  asked q.mailSubject (fun v => [.wildcard Field.subject.label (lower v)]) ++
  asked q.mailFrom (fun v => [.wildcard Field.sender.label (lower v)]) ++
  asked q.mailTo (fun v => [.wildcard Field.recipient.label (lower v)]) ++
  asked q.mimeType (fun v => [.exact Field.mimeType.label v])

/-- The two days of a text `from,to`. -/
def dayPair? (value : String) : Option (Day × Day) :=
  match pieces ',' value with
  | [first, last] => do pure (← Day.read? first, ← Day.read? last)
  | _ => none

/-- The options of a list with commas, those that are blank left out. -/
def options (value : String) : List String := (pieces ',' value).filterMap nonBlank?

/-- The clauses for the filter `value` on a property of the given `kind`. -/
def propertyClauses (kind : FieldKind) (name value : String) : List Clause :=
  match kind with
  | .selectSingle => [.exact name (lower value)]
  | .selectMultiple => (options value).map fun o => .exact name (lower o)
  | .dateInput =>
    match dayPair? value with
    | some (first, last) => [.range name first last]
    | none => []
  | .textInput | .textArea => wordClauses name value
  | .other => [.wildcard name (lower value)]

/-- The clauses for the filter on the property `name`; one that the `schema` does not know is not
asked for. -/
def filterClauses (schema : Schema) (name value : String) : List Clause :=
  match nonBlank? value, schema.field? name with
  | some v, some f => propertyClauses f.kind name v
  | _, _ => []

/-- The clauses of `q` for every domain. -/
def commonClauses (q : Description) (schema : Schema) : List Clause :=
  (q.keywords.toList.filterMap nonBlank?).map (fun k => .wildcard Field.keyword.label (lower k)) ++
  (q.categories.toList.filterMap nonBlank?).map (.exact Field.category.label) ++
  q.properties.entries.flatMap fun e => filterClauses schema e.1 e.2

/-- The clauses of `q` for one domain alone. -/
def ownClauses (q : Description) (scope : Scope) : Domain → List Clause
  | .document => q.documentClauses scope
  | .folder => q.folderClauses scope
  | .mail => q.mailClauses scope

/-- The compiled form of the description `q`: for each of its domains a group of clauses. -/
def compile (q : Description) (schema : Schema) (scope : Scope) : Compiled :=
  ⟨q.domains.toList.map fun d => ⟨d, .all (q.ownClauses scope d ++ q.commonClauses schema)⟩⟩

end Description

end DocSearch
