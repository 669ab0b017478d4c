import DocSearch.Index.Document
import Mathlib.Data.List.Basic

/-!
# What the index keeps of an entity

`Entity.valuesOf` lists the values of an entity by field, and `Document.valuesOf_ofEntity` says that
these are the values of its document.  So what is found of an entity need not speak of documents.

The lemmas on `Document.terms` read the terms of a field off its values, one for each `Analysis`:
`Document.mem_terms_of_verbatim`, `Document.mem_terms_of_folded` and `Document.mem_terms_of_words`.
-/

namespace DocSearch

/-- The values that the entity `e` has in a field of the index. -/
def Entity.valuesOf (e : Entity) : Field → List String
  | .id => [e.id]
  | .kind => [e.kind.label]
  | .context => [e.context]
  | .path => [e.path]
  | .parent => e.parent.toList
  | .name => [e.name]
  | .text => if e.kind = .mail ∨ e.content.isEmpty = true then [] else [e.content]
  | .content => if e.kind = .mail ∧ e.content.isEmpty = false then [e.content] else []
  | .author => e.author.toList
  | .mimeType => e.mimeType.toList
  | .keyword => e.keywords.toList
  | .category => e.categories.toList
  | .lastModified => [e.lastModified.day.key]
  | .subject => e.subject.toList
  | .sender => e.sender.toList
  | .recipient => e.recipients
  | .property => e.properties.entries.flatMap fun p =>
      (propertyTerms p.2).toList.map fun term => propertyTerm p.1 term

namespace Document

/-- Of the values `l` of one field, another field has none and the field itself has all. -/
theorem map_filter_field (f g : Field) (l : List String) :
    ((l.map fun v => (g, v)).filter (·.1 = f)).map (·.2) = if g = f then l else [] := by
  by_cases h : g = f
  · rw [if_pos h, List.filter_eq_self.mpr (by simp [h]), List.map_map]
    exact List.map_id l
  · rw [if_neg h, List.map_eq_nil_iff, List.filter_eq_nil_iff]
    simp [h]

/-- The document of the entity `e` has the values of the entity. -/
theorem valuesOf_ofEntity (e : Entity) (f : Field) : (ofEntity e).valuesOf f = e.valuesOf f := by
  have hbody : (if e.content.isEmpty then [] else [(bodyField e.kind, e.content)]) =
      (if e.content.isEmpty then [] else [e.content]).map fun v => (bodyField e.kind, v) := by
    split <;> rfl
  have hproperties : (e.properties.entries.flatMap fun p =>
      (propertyTerms p.2).toList.map fun term => (Field.property, propertyTerm p.1 term)) =
        (e.valuesOf .property).map fun v => (Field.property, v) := by
    simp [Entity.valuesOf, List.map_flatMap, Function.comp_def]
  rw [valuesOf, ofEntity, hbody, hproperties]
  simp only [List.filter_append, List.map_append, map_filter_field]
  cases f <;> simp [Entity.valuesOf, bodyField]
  all_goals by_cases hk : e.kind = .mail <;> by_cases hc : e.content = "" <;> simp [hk, hc]

/-- The terms of a field are those of the values of the entity. -/
theorem mem_terms_ofEntity {e : Entity} {f : Field} {t : String} :
    t ∈ (ofEntity e).terms f ↔ ∃ v ∈ e.valuesOf f, t ∈ f.terms v := by
  rw [terms, valuesOf_ofEntity, List.mem_flatMap]

/-- A field that is kept as it is has its values for terms. -/
theorem mem_terms_of_verbatim {e : Entity} {f : Field} (h : f.analysis = .verbatim) {t : String} :
    t ∈ (ofEntity e).terms f ↔ t ∈ e.valuesOf f := by
  rw [mem_terms_ofEntity]
  simp [Field.terms, h]

/-- A folded field has the lower case of its values for terms. -/
theorem mem_terms_of_folded {e : Entity} {f : Field} (h : f.analysis = .folded) {t : String} :
    t ∈ (ofEntity e).terms f ↔ ∃ v ∈ e.valuesOf f, t = Text.fold v := by
  rw [mem_terms_ofEntity]
  simp [Field.terms, h]

/-- A field of words has the words of its values for terms. -/
theorem mem_terms_of_words {e : Entity} {f : Field} (h : f.analysis = .words) {t : String} :
    t ∈ (ofEntity e).terms f ↔ ∃ v ∈ e.valuesOf f, ∃ w ∈ Token.ofText v, w.term = t := by
  rw [mem_terms_ofEntity]
  simp [Field.terms, h]

/-- An entity is of the kind `k` iff its document has the word for it. -/
theorem mem_terms_kind {e : Entity} {k : EntityKind} :
    k.label ∈ (ofEntity e).terms .kind ↔ e.kind = k := by
  rw [mem_terms_of_verbatim rfl, Entity.valuesOf, List.mem_singleton]
  cases k <;> cases e.kind <;> decide

/-- The words of an entity stand in the field for its kind, `bodyField`. -/
theorem mem_terms_bodyField {e : Entity} {t : String} :
    t ∈ (ofEntity e).terms (bodyField e.kind) ↔ ∃ w ∈ Token.ofText e.content, w.term = t := by
  have hvalues : e.valuesOf (bodyField e.kind) = if e.content.isEmpty then [] else [e.content] := by
    by_cases hmail : e.kind = .mail
    · by_cases h : e.content.isEmpty = true <;> simp [bodyField, Entity.valuesOf, hmail, h]
    · by_cases h : e.content.isEmpty = true <;> simp [bodyField, Entity.valuesOf, hmail, h]
  have hwords : (bodyField e.kind).analysis = .words := by
    cases e.kind <;> rfl
  rw [mem_terms_of_words hwords, hvalues]
  -- The empty text is not entered; it has no words.
  by_cases h : e.content.isEmpty = true
  · have hnone : Token.ofText "" = [] := by decide
    simp [String.isEmpty_iff.mp h, hnone]
  · simp [h]

end Document

end DocSearch
