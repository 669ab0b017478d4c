import DocSearch.Index.Condition
import DocSearch.Proofs.Text.TextOrder
import Mathlib.Data.List.Basic

/-!
# What conditions and clauses ask of a document

A document meets the conjunction of some conditions iff it meets each of them, and their disjunction
iff it meets one (`Condition.holdsBy_join_all`, `Condition.holdsBy_join_any`); of boolean conditions
no more is used from here on.

`Clause.Admits` says that a document meets the condition of a clause.  One lemma for each kind of
clause says what that is of the terms of the document, for a field of the index and for a property
apart (`Clause.admits_wildcard`, `Clause.admits_wildcard_property` and so on).  From these what a
whole query asks is put together again (`Compiled.holdsBy_iff`).

Nothing here depends on how phrases are looked for, which is the parameter `has` throughout.
-/

namespace DocSearch

variable {has : Phrase → List Token → Bool} {d : Document}

namespace Condition

/-- The parts of a condition are taken one by one, as `List.map` takes them. -/
theorem holdsEachBy_eq_map (ps : List (Occur × Condition)) :
    holdsEachBy has d ps = ps.map fun p => (p.1, holdsBy has d p.2) := by
  induction ps with
  | nil => rfl
  | cons p ps ih => rw [holdsEachBy, ih, List.map_cons]

/-- All of some conditions are met iff each of them is; without any there is nothing to be met, and
the condition fails. -/
theorem holdsBy_allOf {cs : List Condition} :
    holdsBy has d (allOf cs) = true ↔ cs ≠ [] ∧ ∀ c ∈ cs, holdsBy has d c = true := by
  rw [allOf, holdsBy, holdsEachBy_eq_map, List.map_map, Occur.combine, Bool.and_eq_true]
  cases cs with
  | nil => simp
  | cons c cs => simp

/-- One of some conditions is met iff there is one. -/
theorem holdsBy_anyOf {cs : List Condition} :
    holdsBy has d (anyOf cs) = true ↔ ∃ c ∈ cs, holdsBy has d c = true := by
  rw [anyOf, holdsBy, holdsEachBy_eq_map, List.map_map, Occur.combine, Bool.and_eq_true]
  simp

/-- Joined by `Combinator.all`, no condition at all is met by everything. -/
theorem holdsBy_join_all {cs : List Condition} :
    holdsBy has d (Combinator.all.join cs) = true ↔ ∀ c ∈ cs, holdsBy has d c = true := by
  cases cs with
  | nil => simp [Combinator.join, holdsBy]
  | cons c cs =>
    rw [Combinator.join, holdsBy_allOf]
    · simp
    · simp

/-- Joined by `Combinator.any`, no condition at all is met by nothing. -/
theorem holdsBy_join_any {cs : List Condition} :
    holdsBy has d (Combinator.any.join cs) = true ↔ ∃ c ∈ cs, holdsBy has d c = true :=
  holdsBy_anyOf

end Condition

namespace Wildcard

/-- A pattern behind the text `s` fits what goes on, behind that text, with something that fits. -/
theorem fits_literally_append {p : List Piece} {s : List Char} {t : List Char} :
    Fits (s.map .literal ++ p) t ↔ ∃ r, t = s ++ r ∧ Fits p r := by
  induction s generalizing t with
  | nil => simp
  | cons c s ih =>
    simp only [List.map_cons, List.cons_append, Fits, ih]
    constructor
    · rintro ⟨_, rfl, r, rfl, hr⟩
      exact ⟨r, rfl, hr⟩
    · rintro ⟨r, rfl, hr⟩
      exact ⟨s ++ r, rfl, r, rfl, hr⟩

/-- The pattern of a text fits this text only. -/
theorem fits_literals {s t : List Char} : Fits (s.map .literal) t ↔ t = s := by
  have h := fits_literally_append (p := []) (s := s) (t := t)
  rw [List.append_nil] at h
  simp [h, Fits]

end Wildcard

/-- The document `d` has a property of the `name`, capitals not counted, with a value that
`suits`. -/
def Document.HasProperty (d : Document) (name : String) (suits : String → Prop) : Prop :=
  ∃ value, propertyTerm (Text.lower name) value ∈ d.terms .property ∧ suits value

namespace Target

/-- A field of the index that clauses may name is found under its word. -/
theorem of_label {f : Field} (h : f ∈ Field.ofClauses) : of f.label = .field f := by
  revert h
  cases f <;> decide +kernel

/-- Any other `name` is that of a property. -/
theorem of_name {name : String} (h : Field.ofClause? name = none) :
    of name = .property (Text.lower name) := by
  rw [of, h]

end Target

namespace Clause

/-- The conditions of some clauses are taken one by one, as `List.map` takes them. -/
theorem conditions_eq_map (cs : List Clause) : conditions cs = cs.map condition := by
  induction cs with
  | nil => rfl
  | cons c cs ih => rw [conditions, ih, List.map_cons]

/-- The document `d` meets the condition of the clause `c`. -/
def Admits (has : Phrase → List Token → Bool) (d : Document) (c : Clause) : Prop :=
  c.condition.holdsBy has d = true

/-- An exact clause on a field of the index asks for one of its terms. -/
theorem admits_exact {f : Field} (h : f ∈ Field.ofClauses) {value : String} :
    Admits has d (.exact f.label value) ↔ value ∈ d.terms f := by
  simp [Admits, condition, Target.of_label h, Target.exactly, Condition.holdsBy]

/-- A wildcard clause on a field of the index asks for a term that fits. -/
theorem admits_wildcard {f : Field} (h : f ∈ Field.ofClauses) {pattern : String} :
    Admits has d (.wildcard f.label pattern) ↔
      ∃ t ∈ d.terms f, Wildcard.Fits (Wildcard.pattern pattern) t.toList := by
  simp [Admits, condition, Target.of_label h, Target.fitting, Target.indexField, Target.lead,
    Wildcard.literally, Condition.holdsBy, Wildcard.fits_iff]

/-- A range clause on a field of the index asks for a term between the keys. -/
theorem admits_range {f : Field} (h : f ∈ Field.ofClauses) {first last : Day} :
    Admits has d (.range f.label first last) ↔
      ∃ t ∈ d.terms f, first.key ≤ t ∧ t ≤ last.key := by
  simp [Admits, condition, Target.of_label h, Target.between, Target.indexField, Target.lead,
    Condition.holdsBy, Bound.admitsAbove, Bound.admitsBelow]

/-- An exact clause on a property asks for its value in lower case. -/
theorem admits_exact_property {name : String} (h : Field.ofClause? name = none) {value : String} :
    Admits has d (.exact name value) ↔ d.HasProperty name (· = Text.lower value) := by
  simp [Admits, condition, Target.of_name h, Target.exactly, Condition.holdsBy,
    Document.HasProperty]

/-- A wildcard clause on a property asks for a value that fits: the name in front of it is
literal. -/
theorem admits_wildcard_property {name : String} (h : Field.ofClause? name = none)
    {pattern : String} :
    Admits has d (.wildcard name pattern) ↔
      d.HasProperty name fun value => Wildcard.Fits (Wildcard.pattern pattern) value.toList := by
  rw [Admits, condition, Target.of_name h, Target.fitting, Condition.holdsBy, List.any_eq_true,
    Wildcard.literally]
  simp only [Wildcard.fits_iff, Wildcard.fits_literally_append, Target.lead, Target.indexField,
    Document.HasProperty, propertyTerm]
  constructor
  · rintro ⟨t, ht, r, heq, hr⟩
    refine ⟨String.ofList r, ?_, by rwa [String.toList_ofList]⟩
    have hterm : Text.lower name ++ "=" ++ String.ofList r = t := by
      rw [← String.toList_inj, heq]
      simp
    rwa [hterm]
  · rintro ⟨value, hmem, hfits⟩
    exact ⟨_, hmem, value.toList, by simp, hfits⟩

/-- A range clause on a property asks for a value between the keys: the name in front of all three
does not count. -/
theorem admits_range_property {name : String} (h : Field.ofClause? name = none) {first last : Day} :
    Admits has d (.range name first last) ↔
      d.HasProperty name fun value => first.key ≤ value ∧ value ≤ last.key := by
  rw [Admits, condition, Target.of_name h, Target.between, Condition.holdsBy, List.any_eq_true]
  simp only [Bound.admitsAbove, Bound.admitsBelow, Bool.and_eq_true, Target.lead, Target.indexField,
    Document.HasProperty, propertyTerm]
  constructor
  · rintro ⟨t, ht, hlow, hhigh⟩
    obtain ⟨value, rfl, hbetween⟩ :=
      Text.between_append_iff.mp ⟨of_decide_eq_true hlow, of_decide_eq_true hhigh⟩
    exact ⟨value, ht, hbetween⟩
  · rintro ⟨value, hmem, hbetween⟩
    obtain ⟨hlow, hhigh⟩ := Text.between_append_iff.mpr ⟨value, rfl, hbetween⟩
    exact ⟨_, hmem, decide_eq_true hlow, decide_eq_true hhigh⟩

/-- A group of alternatives asks for one of its members. -/
theorem admits_group_any {cs : List Clause} :
    Admits has d (.group .any cs) ↔ ∃ c ∈ cs, Admits has d c := by
  rw [Admits, condition, Condition.holdsBy_join_any, conditions_eq_map]
  simp [Admits]

end Clause

/-- A document meets a group whose members must all hold iff it meets each of them. -/
theorem Group.holdsBy_all {cs : List Clause} :
    (Group.all cs).condition.holdsBy has d = true ↔ ∀ c ∈ cs, c.Admits has d := by
  rw [Group.condition, Group.all, Condition.holdsBy_join_all, Clause.conditions_eq_map]
  simp [Clause.Admits]

/-- A document meets the domain query `q` iff it is of a kind of the domain and meets the group. -/
theorem DomainQuery.holdsBy_iff {q : DomainQuery} :
    q.condition.holdsBy has d = true ↔
      (∃ k ∈ q.domain.kinds, k.label ∈ d.terms .kind) ∧ q.group.condition.holdsBy has d = true := by
  have hkind : q.domain.condition.holdsBy has d = true ↔
      ∃ k ∈ q.domain.kinds, k.label ∈ d.terms .kind := by
    rw [Domain.condition, Condition.holdsBy_anyOf]
    simp [Condition.holdsBy]
  rw [DomainQuery.condition, Condition.holdsBy_allOf, ← hkind]
  simp

/-- A document meets the compiled query `c` iff it meets one of its domain queries. -/
theorem Compiled.holdsBy_iff {c : Compiled} :
    c.condition.holdsBy has d = true ↔ ∃ q ∈ c.domains, q.condition.holdsBy has d = true := by
  rw [Compiled.condition, Condition.holdsBy_anyOf]
  simp

end DocSearch
