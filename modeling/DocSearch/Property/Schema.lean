import DocSearch.Data.Record
import DocSearch.Failure
import DocSearch.Text.Blank

/-!
# Property schemas

A schema lists groups of property fields.  The kind of a field decides how a filter on it is read
(`FieldKind`).  No two fields of a schema have the same name: this is part of a `Schema`
(`Schema.distinct`), so a name leads to one definition at most, and what looks a field up need not
care for its group.

`Schema.ofGroups` is the only way to a schema from groups that may not be fit for one.  It names the
first field, in reading order, that repeats an earlier one; that it finds none just if the names are
distinct is `Schema.firstRepeated?_eq_none_iff`.
-/

namespace DocSearch

/-- The kinds of property fields. -/
inductive FieldKind where
  | selectSingle
  | selectMultiple
  | textInput
  | dateInput
  | textArea
  | other
deriving DecidableEq, Repr

namespace FieldKind

/-- The word for a kind, as data. -/
def label : FieldKind → String
  | selectSingle => "select_single"
  | selectMultiple => "select_multiple"
  | textInput => "text_input"
  | dateInput => "date_input"
  | textArea => "text_area"
  | other => "other"

/-- The word for a kind, in listings. -/
def title : FieldKind → String
  | selectSingle => "SelectSingle"
  | selectMultiple => "SelectMultiple"
  | textInput => "TextInput"
  | dateInput => "DateInput"
  | textArea => "TextArea"
  | other => "Other"

/-- All kinds, for `ofLabel?` to go through. -/
def all : List FieldKind := [selectSingle, selectMultiple, textInput, dateInput, textArea, other]

/-- The kind that the word `label` names. -/
def ofLabel? (label : String) : Option FieldKind := all.find? (·.label == label)

/-- The kind that `v` names, by its word alone or as a table with that one field, `null`. -/
def ofValue? (v : Value) : Option FieldKind := do
  match ← v.asCase? with
  | (name, .null) => ofLabel? name
  | _ => none

/-- The kind for a type `tag` of a schema text, capitals and blanks around it not counted; a tag
that is not known is that of the kind `other`. -/
def ofTag (tag : String) : FieldKind :=
  match String.ofList ((Text.trim Text.isBlank tag.toList).map Char.toLower) with
  | "select_single" | "select" => selectSingle
  | "select_multiple" => selectMultiple
  | "text_input" | "input" => textInput
  | "date_input" | "date" => dateInput
  | "text_area" | "textarea" => textArea
  | _ => other

end FieldKind

/-- A property field. -/
structure FieldDefinition where
  name : String
  label : String
  kind : FieldKind
  /-- The name of its group. -/
  group : String
deriving DecidableEq, Repr

/-- A group of property fields. -/
structure PropertyGroup where
  name : String
  label : String
  fields : List FieldDefinition
deriving DecidableEq, Repr

/-- The fields of some `groups`, in reading order. -/
def PropertyGroup.allFields (groups : List PropertyGroup) : List FieldDefinition :=
  groups.flatMap (·.fields)

/-- Groups of fields with different names. -/
structure Schema where
  groups : List PropertyGroup
  distinct : ((PropertyGroup.allFields groups).map (·.name)).Nodup
deriving DecidableEq

namespace Schema

/-- The first of some names that was used before, by `seen` or by an earlier one of them. -/
def firstRepeated? : (seen : List String) → List String → Option String
  | _, [] => none
  | seen, name :: names =>
    if name ∈ seen then some name else firstRepeated? (name :: seen) names

/-- `firstRepeated?` finds nothing iff the names are distinct and none is `seen`; by this a `Schema`
can be built from what it answers. -/
theorem firstRepeated?_eq_none_iff : ∀ {seen names : List String},
    firstRepeated? seen names = none ↔ names.Nodup ∧ ∀ n ∈ names, n ∉ seen
  | seen, [] => by simp [firstRepeated?]
  | seen, name :: names => by
    unfold firstRepeated?
    split
    · simp_all
    · rename_i hn
      rw [firstRepeated?_eq_none_iff]
      constructor
      · rintro ⟨hd, hs⟩
        refine ⟨List.nodup_cons.mpr ⟨fun h => hs name h (.head _), hd⟩, fun n hmem => ?_⟩
        rcases List.mem_cons.mp hmem with rfl | h
        · exact hn
        · exact fun hseen => hs n h (.tail _ hseen)
      · rintro ⟨hd, hs⟩
        have hd := List.nodup_cons.mp hd
        refine ⟨hd.2, fun n hmem hseen => ?_⟩
        rcases List.mem_cons.mp hseen with rfl | h
        · exact hd.1 hmem
        · exact hs n (.tail _ hmem) h

/-- The schema of some `groups`, unless a name of theirs is repeated. -/
def ofGroups (groups : List PropertyGroup) : Except SchemaFault Schema :=
  match h : firstRepeated? [] ((PropertyGroup.allFields groups).map (·.name)) with
  | some name => .error (.duplicateField name)
  | none => .ok ⟨groups, (firstRepeated?_eq_none_iff.mp h).1⟩

/-- The schema without fields. -/
def empty : Schema := ⟨[], List.nodup_nil⟩

instance : Inhabited Schema := ⟨empty⟩

/-- All fields of `s`, in reading order. -/
def fields (s : Schema) : List FieldDefinition := PropertyGroup.allFields s.groups

/-- The field of `name`, whichever its group. -/
def field? (s : Schema) (name : String) : Option FieldDefinition := s.fields.find? (·.name == name)

/-- The first group of `name`; groups may share one. -/
def group? (s : Schema) (name : String) : Option PropertyGroup := s.groups.find? (·.name == name)

/-- The number of fields of `s`. -/
def fieldCount (s : Schema) : Nat := s.fields.length

end Schema

/-! ## Groups as data -/

/-- The field `f` as data. -/
def FieldDefinition.toValue (f : FieldDefinition) : Value := .table [("name", .text f.name),
  ("label", .text f.label), ("field_type", .text f.kind.label), ("group", .text f.group)]

/-- The field that `v` states, all of its parts given. -/
def FieldDefinition.ofValue? (v : Value) : Option FieldDefinition := do
  let r ← Record.of? ["name", "label", "field_type", "group"] v
  pure {
    name := ← r.required "name" Value.asText?
    label := ← r.required "label" Value.asText?
    kind := ← r.required "field_type" FieldKind.ofValue?
    group := ← r.required "group" Value.asText? }

/-- The group `g` as data. -/
def PropertyGroup.toValue (g : PropertyGroup) : Value := .table [("name", .text g.name),
  ("label", .text g.label), ("fields", .list (g.fields.map (·.toValue)))]

/-- The group that `v` states, all of its parts given. -/
def PropertyGroup.ofValue? (v : Value) : Option PropertyGroup := do
  let r ← Record.of? ["name", "label", "fields"] v
  pure {
    name := ← r.required "name" Value.asText?
    label := ← r.required "label" Value.asText?
    fields := ← r.required "fields" fun v => v.asList?.bind (·.mapM FieldDefinition.ofValue?) }

end DocSearch
