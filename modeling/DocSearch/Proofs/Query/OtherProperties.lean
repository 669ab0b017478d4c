import DocSearch.Proofs.Query.PropertyFilters

/-!
# What property filters pass over

The properties of an entity lie in one field of the index, each by its name and an equals sign in
front of what it is found by.  A filter asks for a beginning there: the name of its property and an
equals sign.

* Two beginnings of one text are comparable, so what passes the filter is a property whose name
  overlaps with the one asked for (`Entity.HasProperty.overlaps`).
* Names without an equals sign overlap only if they are one name up to capitals
  (`Text.Overlap.caseless_eq`).

So a query with a filter passes over the entities without the property, whatever else they hold
(`propertyFilter_passes_over`).  This needs that the name is not the one of a field of the index,
since such a field is asked in the place of the property, and that names do not overlap
(`propertyFilter_finds_others`).
-/

namespace DocSearch

namespace Text

/-! ## Names up to capitals -/

/-- A text with its capitals not counted, nor which of the small sigmas it has. -/
def caseless (s : String) : List Char :=
  (lowerEach s.toList).map fun c => if c = 'ς' then 'σ' else c

/-- Both forms of lower case are the same text with capitals not counted. -/
theorem map_lowerWordsFrom : ∀ cs before : List Char,
    (lowerWordsFrom before cs).map (fun c => if c = 'ς' then 'σ' else c) =
      (lowerEach cs).map fun c => if c = 'ς' then 'σ' else c
  | [], _ => rfl
  | c :: cs, before => by
    rw [lowerWordsFrom, lowerEach_cons, List.map_append, List.map_append, map_lowerWordsFrom cs]
    congr 1
    split
    · rename_i hfinal
      simp only [Bool.and_eq_true, decide_eq_true_eq] at hfinal
      rw [hfinal.1.1]
      decide +kernel
    · rfl

/-- A name that is `asked` for and a name that is `held` overlap if one of them, with an equals sign
behind it, is how the other one begins that has an equals sign behind it. -/
def Overlap (held asked : String) : Prop :=
  (fold held).toList ++ ['='] <+: (lower asked).toList ++ ['='] ∨
    (lower asked).toList ++ ['='] <+: (fold held).toList ++ ['=']

instance (held asked : String) : Decidable (Overlap held asked) :=
  inferInstanceAs (Decidable (_ ∨ _))

/-- Of texts with one equals sign each, at their ends, none is how the other begins unless they are
the same. -/
theorem eq_of_prefix_equals {a b : List Char} (hb : '=' ∉ b)
    (h : a ++ ['='] <+: b ++ ['=']) : a = b := by
  obtain ⟨rest, heq⟩ := h
  rw [List.append_assoc, List.singleton_append] at heq
  have ha : '=' ∉ a := by
    intro hmem
    -- Otherwise there would be two equals signs in front, and only one is left of them.
    have hcount := congrArg (List.count '=') heq
    rw [List.count_append, List.count_cons_self, List.count_append,
      List.count_eq_zero_of_not_mem hb] at hcount
    have hpos : 0 < a.count '=' := List.count_pos_iff.mpr hmem
    simp at hcount
    omega
  exact ((append_equals_inj ha hb).mp heq).1

/-- Names without an equals sign overlap only if they are the same up to capitals (`caseless`). -/
theorem Overlap.caseless_eq {held asked : String} (hheld : '=' ∉ held.toList)
    (hasked : '=' ∉ asked.toList)
    (h : Overlap held asked) : caseless held = caseless asked := by
  have hleft : '=' ∉ (fold held).toList := by
    rw [toList_fold]
    exact mt (mem_of_mem_lowerEach (by decide)) hheld
  have hright : '=' ∉ (lower asked).toList := by
    rw [toList_lower]
    exact mt (mem_of_mem_lowerWordsFrom (by decide)) hasked
  have heq : (fold held).toList = (lower asked).toList := by
    rcases h with h | h
    · exact eq_of_prefix_equals hright h
    · exact (eq_of_prefix_equals hleft h).symm
  rw [toList_fold, toList_lower] at heq
  rw [caseless, caseless, heq, lowerWords, map_lowerWordsFrom]

end Text

/-! ## What passes a filter -/

/-- What is found as a property of the `name` is a property of a name that overlaps with it. -/
theorem Entity.HasProperty.overlaps {e : Entity} {name : String} {suits : String → Prop}
    (h : e.HasProperty name suits) : ∃ p ∈ e.properties.entries, Text.Overlap p.1 name := by
  obtain ⟨p, hp, t, _, value, heq, _⟩ := h
  have hequals : Text.lowerChar '=' = ['='] := by decide +kernel
  have hheld : (Text.fold p.1).toList ++ ['='] <+: (Text.fold (propertyTerm p.1 t)).toList :=
    ⟨(Text.fold t).toList, by
      simp [propertyTerm, Text.toList_fold, Text.lowerEach_append, Text.lowerEach_cons, hequals]⟩
  have hasked : (Text.lower name).toList ++ ['='] <+: (Text.fold (propertyTerm p.1 t)).toList :=
    ⟨value.toList, by
      rw [heq]
      simp [propertyTerm]⟩
  exact ⟨p, hp, List.prefix_or_prefix_of_prefix hheld hasked⟩

/-- An entity that passes a filter has the property, unless the filter asks for nothing. -/
theorem Entity.PassesProperty.hasProperty {e : Entity} {kind : FieldKind} {name value : String}
    (h : e.PassesProperty kind name value)
    (hasks : Description.propertyClauses kind name value ≠ []) :
    ∃ suits, e.HasProperty name suits := by
  cases kind with
  | selectSingle => exact ⟨_, h⟩
  | other => exact ⟨_, h⟩
  | selectMultiple =>
    obtain ⟨o, ho⟩ := List.exists_mem_of_ne_nil _ (mt List.map_eq_nil_iff.mpr hasks)
    exact ⟨_, h o ho⟩
  | textInput =>
    obtain ⟨w, hw⟩ := List.exists_mem_of_ne_nil _ (mt List.map_eq_nil_iff.mpr hasks)
    exact ⟨_, h w hw⟩
  | textArea =>
    obtain ⟨w, hw⟩ := List.exists_mem_of_ne_nil _ (mt List.map_eq_nil_iff.mpr hasks)
    exact ⟨_, h w hw⟩
  | dateInput =>
    cases hpair : Description.dayPair? value with
    | none => exact absurd (by rw [Description.propertyClauses, hpair]) hasks
    | some days => exact ⟨_, h days.1 days.2 hpair⟩

section

variable {schema : Schema} {f : FieldDefinition} (hf : f ∈ schema.fields)
variable (hrouted : Field.ofClause? f.name = none) {q : Description} {value : String}
variable (hq : q.properties.get? f.name = some value)
variable (hasks : Description.filterClauses schema f.name value ≠ [])

include hf hrouted hq hasks

/-- What meets a query with a filter has a property of a name that overlaps with the name in the
filter. -/
theorem Description.overlaps_of_holdsBy_compile {has : Phrase → List Token → Bool} {scope : Scope}
    {e : Entity}
    (h : (q.compile schema scope).condition.holdsBy has (.ofEntity e) = true) :
    ∃ p ∈ e.properties.entries, Text.Overlap p.1 f.name := by
  obtain ⟨_, hd, hholds⟩ := Compiled.holdsBy_iff.mp h
  obtain ⟨d, _, rfl⟩ := List.mem_map.mp hd
  have hall := Group.holdsBy_all.mp (DomainQuery.holdsBy_iff.mp hholds).2
  have hfilter : Pass has e (filterClauses schema f.name value) := by
    intro c hc
    refine hall c (List.mem_append_right _ (List.mem_append_right _ ?_))
    exact List.mem_flatMap.mpr ⟨(f.name, value), SortedMap.get?_eq_some_iff.mp hq, hc⟩
  rw [filterClauses, Schema.field?_of_mem hf] at hfilter hasks
  cases hv : Text.nonBlank? value with
  | none => exact absurd (by rw [hv]) hasks
  | some v =>
    rw [hv] at hfilter hasks
    obtain ⟨_, hproperty⟩ := ((pass_propertyClauses hrouted _ _).mp hfilter).hasProperty hasks
    exact hproperty.overlaps

/-- A query with a filter on a property that no field of the index is named like passes over every
entity without a property whose name overlaps with the one in the filter, whatever else is asked for
and whatever else the entity holds.  If no name has an equals sign, these are the entities without
the property, capitals in names not counted (`Text.caseless`). -/
theorem propertyFilter_passes_over {e : Entity} {i : Index} {later : List Change}
    (others : ∀ c ∈ later, c.id ≠ e.id)
    {scope : Scope} :
    ((∀ p ∈ e.properties.entries, ¬ Text.Overlap p.1 f.name) →
      ∀ d ∈ (i.storing e later).found (q.compile schema scope).condition, d.id ≠ e.id) ∧
    ('=' ∉ f.name.toList →
      (∀ p ∈ e.properties.entries, '=' ∉ p.1.toList ∧ Text.caseless p.1 ≠ Text.caseless f.name) →
        ∀ d ∈ (i.storing e later).found (q.compile schema scope).condition, d.id ≠ e.id) := by
  have hover : (∀ p ∈ e.properties.entries, ¬ Text.Overlap p.1 f.name) →
      ∀ d ∈ (i.storing e later).found (q.compile schema scope).condition, d.id ≠ e.id := by
    intro hnone d hd hid
    obtain ⟨hd, hholds⟩ := List.mem_filter.mp hd
    rw [(Index.mem_published_storing others hid).mp hd] at hholds
    obtain ⟨p, hp, hoverlap⟩ := Description.overlaps_of_holdsBy_compile hf hrouted hq hasks hholds
    exact hnone p hp hoverlap
  refine ⟨hover, fun hplain hnames => hover fun p hp hoverlap => ?_⟩
  exact (hnames p hp).2 (hoverlap.caseless_eq (hnames p hp).1 hplain)

end

/-- The red tags of a report are passed over by a filter for the red color, and a property by a
filter on another one whose name begins alike and goes on behind an equals sign. -/
theorem propertyFilter_passes_over_tags :
    ¬ ReportFound "tags" "red" "color" "red" ∧ ¬ ReportFound "form:a=c" "b=c" "form:a=b" "c" := by
  constructor
  · rintro ⟨_, d, hd, hid⟩
    have hfield : ⟨"color", "Color", .selectSingle, "form"⟩ ∈ filterSchema.fields := by decide
    exact (propertyFilter_passes_over hfield (by decide) (SortedMap.get?_eq_some_iff.mpr (.head _))
      (by decide +kernel)
      (List.forall_mem_nil _)).2 (by decide) (by decide +kernel) d hd hid
  · rintro ⟨_, d, hd, hid⟩
    have hfield : ⟨"form:a=b", "B", .selectSingle, "form"⟩ ∈ filterSchema.fields := by decide
    exact (propertyFilter_passes_over hfield (by decide) (SortedMap.get?_eq_some_iff.mpr (.head _))
      (by decide +kernel)
      (List.forall_mem_nil _)).1 (by decide +kernel) d hd hid

/-- A report by one author, `red`. -/
def authoredReport : Entity := { reportWith "color" "red" with author := some "red" }

/-- Filters find reports that do not hold the property: one by its author if this is the name of the
property, and others by properties whose names overlap with the one in the filter. -/
theorem propertyFilter_finds_others :
    (((Index.empty 100).storing authoredReport []).Finds
        ((Description.byProperty .document "author" "red").compile filterSchema .empty)
          authoredReport.id ∧
      ∀ p ∈ authoredReport.properties.entries, Text.caseless p.1 ≠ Text.caseless "author") ∧
    (ReportFound "form:a=b" "c" "form:a" "b=c" ∧ ReportFound "form:a" "b=c" "form:a=b" "c" ∧
      Text.caseless "form:a=b" ≠ Text.caseless "form:a") := by
  decide +kernel

end DocSearch
