import DocSearch.Index.Entity
import DocSearch.Query.Encoding

/-!
# Entities as data

An entity is stated by a table in which every field may be left out: it is then a document, without
texts, and last changed at the start of 1970 (`Timestamp.epoch`).  A list of values in the order of
`Entity.fieldNames` states one too, as of every record (`Record.of?`).
-/

namespace DocSearch

/-- The kind of entity that `v` names, by its word alone or as a table with that one field,
`null`. -/
def EntityKind.ofValue? (v : Value) : Option EntityKind := do
  match ← v.asCase? with
  | (name, .null) => ofLabel? name
  | _ => none

/-- The names of the fields of an entity, in the order in which a list gives them. -/
def Entity.fieldNames : List String :=
  ["id", "kind", "path", "parent", "content", "author", "mime_type", "keywords", "categories",
    "properties",
    "last_modified", "subject", "from", "to"]

/-- The entity that `v` states, its fields with the defaults of the header. -/
def Entity.ofValue? (v : Value) : Option Entity := do
  let r ← Record.of? fieldNames v
  pure {
    id := ← r.withDefault "id" "" Value.asText?
    kind := ← r.withDefault "kind" .document EntityKind.ofValue?
    path := ← r.withDefault "path" "" Value.asText?
    parent := ← r.optional "parent" Value.asText?
    content := ← r.withDefault "content" "" Value.asText?
    author := ← r.optional "author" Value.asText?
    mimeType := ← r.optional "mime_type" Value.asText?
    keywords := ← r.withDefault "keywords" .empty Value.asTextSet?
    categories := ← r.withDefault "categories" .empty Value.asTextSet?
    properties := ← r.withDefault "properties" .empty fun v => v.asTextTable?.map .ofList
    lastModified := (← r.optional "last_modified" Timestamp.ofValue?).getD .epoch
    subject := ← r.optional "subject" Value.asText?
    sender := ← r.optional "from" Value.asText?
    recipients := ← r.withDefault "to" [] Value.asTexts? }

end DocSearch
