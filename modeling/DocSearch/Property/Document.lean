import DocSearch.Property.Schema
import DocSearch.Toml.Reader

/-!
# Schema documents

A schema is written as a TOML document of `[[group]]` tables, each with `[[group.field]]` tables.
Names are trimmed and must not be blank; a label that is left out is the name.

`Schema.parse` goes in three steps, and the fault it names is the first one in this order:

* the whole document is read (`SchemaDocument.entries?`),
* the names are looked at group by group, that of a group before those of its fields
  (`GroupEntry.define`, `FieldEntry.define`),
* last it is checked that no field is repeated (`Schema.ofGroups`).
-/

namespace DocSearch

namespace SchemaDocument

/-- A field as the document states it; `tag` is the word for its kind. -/
structure FieldEntry where
  name : String
  label : Option String
  tag : String

/-- A group as the document states it. -/
structure GroupEntry where
  name : String
  label : Option String
  fields : List FieldEntry

/-- The field that `v` states; its `label` may be left out. -/
def FieldEntry.ofValue? (v : Value) : Option FieldEntry := do
  let r ← Record.ofDocument? ["name", "label", "type"] v
  pure {
    name := ← r.required "name" Value.asText?
    label := ← r.nullable "label" Value.asText?
    tag := ← r.required "type" Value.asText? }

/-- The group that `v` states; its `label` and its fields may be left out. -/
def GroupEntry.ofValue? (v : Value) : Option GroupEntry := do
  let r ← Record.ofDocument? ["name", "label", "field"] v
  pure {
    name := ← r.required "name" Value.asText?
    label := ← r.nullable "label" Value.asText?
    fields := ← r.withDefault "field" [] fun v => v.asList?.bind (·.mapM FieldEntry.ofValue?) }

/-- The groups that the document `body` states. -/
def entries? (body : String) : Option (List GroupEntry) := do
  let r ← Record.ofDocument? ["group"] (← Toml.read? body)
  r.withDefault "group" [] fun v => v.asList?.bind (·.mapM GroupEntry.ofValue?)

/-- The definition of the field `e` in the group named `group`. -/
def FieldEntry.define (group : String) (e : FieldEntry) : Except SchemaFault FieldDefinition :=
  match Text.nonBlank? e.name with
  | none => .error (.fieldWithoutName group)
  | some name => .ok ⟨name, e.label.getD name, .ofTag e.tag, group⟩

/-- The definition of the group `e` with its fields. -/
def GroupEntry.define (e : GroupEntry) : Except SchemaFault PropertyGroup :=
  match Text.nonBlank? e.name with
  | none => .error .groupWithoutName
  | some name => (e.fields.mapM (FieldEntry.define name)).map fun fields =>
      ⟨name, e.label.getD name, fields⟩

end SchemaDocument

/-- The schema that the document `body` states. -/
def Schema.parse (body : String) : Except SchemaFault Schema :=
  match SchemaDocument.entries? body with
  | none => .error (.unreadable "the document cannot be read")
  | some entries => (entries.mapM SchemaDocument.GroupEntry.define).bind ofGroups

end DocSearch
