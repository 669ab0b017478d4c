import DocSearch.Data.Record
import DocSearch.Json.Printer
import DocSearch.Json.Reader
import DocSearch.Query.Description

/-!
# Query descriptions as data

`Description.toValue` lists all fields of a description; `Description.ofValue?` needs the domains
only, and takes the defaults of `Description` for the others.  Through JSON these give
`Description.write` and `Description.read?`, the form in which the queries of saved searches are
stored.
-/

namespace DocSearch

/-- The domain that `v` names, by its word alone or as a table with that one field, `null`. -/
def Domain.ofValue? (v : Value) : Option Domain := do
  match ← v.asCase? with
  | (name, .null) => ofLabel? name
  | _ => none

/-- The point in time that `v` states, in the form that `Timestamp.read?` takes. -/
def Timestamp.ofValue? (v : Value) : Option Timestamp := v.asText?.bind read?

/-- The set of texts that `v` lists. -/
def Value.asTextSet? (v : Value) : Option (SortedSet String) := v.asTexts?.map .ofList

/-- The set of texts `s` as a list, in order. -/
def Value.ofTextSet (s : SortedSet String) : Value := .list (s.toList.map .text)

namespace Description

/-- The names of the fields, in the order in which a list gives them. -/
def fieldNames : List String :=
  ["domains", "name", "content", "author", "mime_type", "path", "mail_subject",
    "mail_from", "mail_to",
    "keywords", "categories", "properties", "last_modified_from", "last_modified_to",
    "offset", "limit"]

/-- The description `q` as data, with every field. -/
def toValue (q : Description) : Value := .table [
  ("domains", .list (q.domains.toList.map fun d => .text d.label)),
  ("name", .ofOption .text q.name),
  ("content", .ofOption .text q.content),
  ("author", .ofOption .text q.author),
  ("mime_type", .ofOption .text q.mimeType),
  ("path", .ofOption .text q.path),
  ("mail_subject", .ofOption .text q.mailSubject),
  ("mail_from", .ofOption .text q.mailFrom),
  ("mail_to", .ofOption .text q.mailTo),
  ("keywords", .ofTextSet q.keywords),
  ("categories", .ofTextSet q.categories),
  ("properties", .table (q.properties.entries.map fun e => (e.1, .text e.2))),
  ("last_modified_from", .ofOption (fun t => .text t.text) q.lastModifiedFrom),
  ("last_modified_to", .ofOption (fun t => .text t.text) q.lastModifiedTo),
  ("offset", .int q.offset.toNat),
  ("limit", .ofOption (fun n => .int n.toNat) q.limit)]

/-- The description that `v` states. -/
def ofValue? (v : Value) : Option Description := do
  let r ← Record.of? fieldNames v
  pure {
    domains := .ofList (← r.required "domains" fun v => v.asList?.bind (·.mapM Domain.ofValue?))
    name := ← r.optional "name" Value.asText?
    content := ← r.optional "content" Value.asText?
    author := ← r.optional "author" Value.asText?
    mimeType := ← r.optional "mime_type" Value.asText?
    path := ← r.optional "path" Value.asText?
    mailSubject := ← r.optional "mail_subject" Value.asText?
    mailFrom := ← r.optional "mail_from" Value.asText?
    mailTo := ← r.optional "mail_to" Value.asText?
    keywords := ← r.withDefault "keywords" .empty Value.asTextSet?
    categories := ← r.withDefault "categories" .empty Value.asTextSet?
    properties := ← r.withDefault "properties" .empty fun v => v.asTextTable?.map .ofList
    lastModifiedFrom := ← r.optional "last_modified_from" Timestamp.ofValue?
    lastModifiedTo := ← r.optional "last_modified_to" Timestamp.ofValue?
    offset := ← r.withDefault "offset" 0 Value.asWord?
    limit := ← r.optional "limit" Value.asWord? }

/-- The JSON text of the description `q`. -/
def write (q : Description) : String := Json.write q.toValue

/-- The description that the JSON text `s` states. -/
def read? (s : String) : Option Description := (Json.read? s).bind ofValue?

end Description

end DocSearch
