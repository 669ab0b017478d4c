import DocSearch.Proofs.Calendar.KeyOrder
import DocSearch.Proofs.Data.Tables
import DocSearch.Proofs.Query.Finding
import DocSearch.Proofs.Text.Runs

/-!
# What property filters find

A stored value is found by several texts (`Entity.HasValue`): the whole value, its options between
commas, its words and, if it is a day, the key of the day (`exists_propertyTerm_iff`).  The index
does not know the kind of a property, so a filter of any kind is asked of all of them.

* A filter on options finds an option in a value that has it as a word or as its day
  (`selectFilter_finds_iff`, `selectFilter_finds_other`).
* A filter on days finds the days of its range.  It also finds texts that lie between the keys of
  its ends without being keys: days with dashes, of the year in which the range ends, if it begins
  in an earlier year (`dateFilter_finds_iff`, `dateFilter_finds_outside`).

The properties asked for are apart from all others (`FieldDefinition.IsApart`); what happens to
those that are not is shown in `selectFilter_finds_other` and `propertyFilter_finds_others`.
-/

namespace DocSearch

/-- A field of a schema is found by its name, which no other field has. -/
theorem Schema.field?_of_mem {s : Schema} {f : FieldDefinition} (hf : f ∈ s.fields) :
    s.field? f.name = some f := find?_eq_some_of_nodup s.distinct hf

/-! ## Stored values -/

namespace Entity

/-- The entity has the value `stored` under the `name`, capitals in the name not counted. -/
def Stores (e : Entity) (name stored : String) : Prop :=
  ∃ p ∈ e.properties.entries, Text.fold p.1 = Text.lower name ∧ p.2 = stored

/-- A value stored under the `name` is found by a text that `suits`.  It is found by itself without
the blanks around it, by its options between commas, by its words, all in lower case, and by the key
of its day. -/
def HasValue (e : Entity) (name : String) (suits : String → Prop) : Prop :=
  ∃ stored v, e.Stores name stored ∧ Text.nonBlank? stored = some v ∧
    (suits (Text.fold v) ∨ (∃ o ∈ Description.options v, suits (Text.fold o)) ∨
      (∃ w ∈ Text.words v, suits (Text.fold w)) ∨ ∃ day, Day.read? v = some day ∧ suits day.key)

end Entity

/-- The texts that a `stored` value is found by; none if it is blank. -/
theorem exists_propertyTerm_iff {stored : String} {suits : String → Prop} :
    (∃ t ∈ propertyTerms stored, suits (Text.fold t)) ↔ ∃ v, Text.nonBlank? stored = some v ∧
      (suits (Text.fold v) ∨ (∃ o ∈ Description.options v, suits (Text.fold o)) ∨
        (∃ w ∈ Text.words v, suits (Text.fold w)) ∨ ∃ day, Day.read? v = some day ∧
          suits day.key) := by
  unfold propertyTerms
  cases Text.nonBlank? stored with
  | none => simp [SortedSet.mem_iff, SortedSet.empty]
  | some v =>
    have hday : (∃ t, (∃ day, Day.read? v = some day ∧ day.key = t) ∧ suits (Text.fold t)) ↔
        ∃ day, Day.read? v = some day ∧ suits day.key := by
      constructor
      · rintro ⟨_, ⟨day, hday, rfl⟩, hsuits⟩
        exact ⟨day, hday, day.fold_key ▸ hsuits⟩
      · rintro ⟨day, hday, hsuits⟩
        exact ⟨day.key, ⟨day, hday, rfl⟩, day.fold_key.symm ▸ hsuits⟩
    simp only [SortedSet.mem_ofList, List.mem_append, List.mem_singleton, Option.mem_toList,
      Option.map_eq_some_iff, or_and_right, exists_or, exists_eq_left, hday, Option.some.injEq,
      exists_eq_left', or_assoc, Description.options]

/-- What has to be known of a property field for a filter on it to be asked of the property of that
name and of no other value: no field of the index has its name, and no name has an equals sign. -/
structure FieldDefinition.IsApart (f : FieldDefinition) (e : Entity) : Prop where
  routed : Field.ofClause? f.name = none
  plain : '=' ∉ f.name.toList
  plainNames : ∀ p ∈ e.properties.entries, '=' ∉ p.1.toList

/-- The property of a field that is apart is found by the values stored under its name. -/
theorem Entity.hasProperty_iff_hasValue {e : Entity} {f : FieldDefinition} (hapart : f.IsApart e)
    {suits : String → Prop} : e.HasProperty f.name suits ↔ e.HasValue f.name suits := by
  rw [hasProperty_iff hapart.plain hapart.plainNames]
  simp only [exists_propertyTerm_iff]
  constructor
  · rintro ⟨p, hp, hname, v, hv, hsuits⟩
    exact ⟨p.2, v, ⟨p, hp, hname, rfl⟩, hv, hsuits⟩
  · rintro ⟨_, v, ⟨p, hp, hname, rfl⟩, hv, hsuits⟩
    exact ⟨p, hp, hname, v, hv, hsuits⟩

/-! ## The filter alone -/

namespace Description

/-- The search of the domain `d` for a value of a property. -/
def byProperty (d : Domain) (name value : String) : Description :=
  { domains := .ofList [d], properties := .ofList [(name, value)] }

/-- Such a search has the clauses of the filter alone. -/
theorem compile_byProperty (d : Domain) (name value : String) (schema : Schema) (scope : Scope) :
    (byProperty d name value).compile schema scope =
      .alone d (filterClauses schema name value) := by
  have hown : (byProperty d name value).ownClauses scope d = [] := by
    cases d <;> rfl
  have hentries : (byProperty d name value).properties.entries = [(name, value)] := rfl
  have hdomains : (byProperty d name value).domains.toList = [d] := rfl
  have hkeywords : (byProperty d name value).keywords.toList = [] := rfl
  have hcategories : (byProperty d name value).categories.toList = [] := rfl
  have hcommon :
      (byProperty d name value).commonClauses schema = filterClauses schema name value := by
    rw [commonClauses, hentries, hkeywords, hcategories]
    simp
  rw [compile, hdomains, List.map_singleton, hown, hcommon, List.nil_append, Compiled.alone]

end Description

theorem Clause.patterns_range (name : String) (first last : Day) :
    (range name first last).condition.patterns = [] := rfl

section

variable {schema : Schema} {f : FieldDefinition} (hf : f ∈ schema.fields)
variable {e : Entity} {later : List Change} (others : ∀ c ∈ later, c.id ≠ e.id)
variable {d : Domain} (hd : d.Covers e.kind) {value v : String} (hv : Text.nonBlank? value = some v)

include hf others hd hv

/-- A filter finds the entities that pass it, if the index can look for its patterns. -/
theorem finds_byProperty_iff_of_searchable {i : Index} {scope : Scope}
    (hrouted : Field.ofClause? f.name = none)
    (hsearchable : ∀ c ∈ Description.propertyClauses f.kind f.name v, ∀ p ∈ c.condition.patterns,
      Wildcard.isSearchable p = true) :
    (i.storing e later).Finds ((Description.byProperty d f.name value).compile schema scope) e.id ↔
      e.PassesProperty f.kind f.name v := by
  have hclauses : Description.filterClauses schema f.name value =
      Description.propertyClauses f.kind f.name v := by
    rw [Description.filterClauses, hv, Schema.field?_of_mem hf]
  rw [Description.compile_byProperty, hclauses, Index.finds_alone_iff others,
    Description.pass_propertyClauses hrouted]
  exact ⟨fun h => h.2.2, fun h => ⟨hsearchable, hd, h⟩⟩

/-- A filter without patterns finds the entities that pass it. -/
theorem finds_byProperty_iff {i : Index} {scope : Scope} (hrouted : Field.ofClause? f.name = none)
    (hpatterns : ∀ c ∈ Description.propertyClauses f.kind f.name v, c.condition.patterns = []) :
    (i.storing e later).Finds ((Description.byProperty d f.name value).compile schema scope) e.id ↔
      e.PassesProperty f.kind f.name v := by
  refine finds_byProperty_iff_of_searchable hf others hd hv hrouted fun c hc p hp => ?_
  rw [hpatterns c hc] at hp
  cases hp

end

/-! ## Filters on options -/

/-- Fields for options and for a day.  One has the name of a field of the index, one an equals sign
in its name. -/
def filterSchema : Schema := ⟨[⟨"form", "Form", [⟨"color", "Color", .selectSingle, "form"⟩,
  ⟨"tags", "Tags", .selectMultiple, "form"⟩, ⟨"author", "Author", .selectSingle, "form"⟩,
  ⟨"form:a", "A", .selectSingle, "form"⟩, ⟨"form:a=b", "B", .selectSingle, "form"⟩,
  ⟨"due", "Due", .dateInput, "form"⟩]⟩], by decide⟩

/-- A report with one property. -/
def reportWith (name stored : String) : Entity :=
  { Description.redReport with properties := .ofList [(name, stored)] }

theorem covers_reportWith (name stored : String) :
    Domain.document.Covers (reportWith name stored).kind := .inl rfl

theorem stores_reportWith_iff {name stored asked s : String} :
    (reportWith name stored).Stores asked s ↔ Text.fold name = Text.lower asked ∧ s = stored := by
  have hentries : (reportWith name stored).properties.entries = [(name, stored)] := rfl
  rw [Entity.Stores, hentries]
  simp [eq_comm]

/-- A report with the one property is found, in an index that keeps nothing else, by the filter on a
property. -/
def ReportFound (name stored asked value : String) : Prop :=
  ((Index.empty 100).storing (reportWith name stored) []).Finds
    ((Description.byProperty .document asked value).compile filterSchema .empty)
    (reportWith name stored).id

instance (name stored asked value : String) : Decidable (ReportFound name stored asked value) :=
  inferInstanceAs (Decidable (Index.Finds _ _ _))

theorem Day.read?_trimmed (s : String) : Day.read? (Text.trimmed s) = Day.read? s := by
  rw [Day.read?, Text.toList_trimmed, Text.trim_trim, Day.read?]

/-- A text that states a day is not blank. -/
theorem Day.nonBlank?_of_read? {s : String} {day : Day} (h : Day.read? s = some day) :
    Text.nonBlank? s = some (Text.trimmed s) := by
  rw [Text.nonBlank?]
  refine if_neg fun hempty => ?_
  have hnone : Day.read? "" = none := by decide +kernel
  rw [← Day.read?_trimmed, String.isEmpty_iff.mp hempty, hnone] at h
  cases h

/-- If the only value under the `name` states a day, it is found by the key of this day and by its
own texts. -/
theorem Entity.hasValue_iff_of_day {e : Entity} {name stored : String}
    (hstored : ∀ s, e.Stores name s ↔ s = stored)
    {day : Day} (hday : Day.read? stored = some day) {suits : String → Prop} :
    e.HasValue name suits ↔ suits day.key ∨ ∃ t, (t = Text.trimmed stored ∨
      t ∈ Description.options (Text.trimmed stored) ∨ t ∈ Text.words (Text.trimmed stored)) ∧
        suits (Text.fold t) := by
  have hread : Day.read? (Text.trimmed stored) = some day := (Day.read?_trimmed stored).trans hday
  simp only [HasValue, hstored, Day.nonBlank?_of_read? hday, exists_and_left, exists_eq_left,
    Option.some.injEq, exists_eq_left', hread]
  constructor
  · rintro (h | ⟨o, ho, h⟩ | ⟨w, hw, h⟩ | h)
    · exact .inr ⟨_, .inl rfl, h⟩
    · exact .inr ⟨o, .inr (.inl ho), h⟩
    · exact .inr ⟨w, .inr (.inr hw), h⟩
    · exact .inl h
  · rintro (h | ⟨t, rfl | ho | hw, h⟩)
    · exact .inr (.inr (.inr h))
    · exact .inl h
    · exact .inr (.inl ⟨t, ho, h⟩)
    · exact .inr (.inr (.inl ⟨t, hw, h⟩))

/-- A word without a comma has itself as its only option. -/
theorem Text.IsWord.options_eq {s : String} (h : IsWord s) (hcomma : ',' ∉ s.toList) :
    Description.options s = [s] := by
  rw [Description.options, pieces, List.splitOn_eq_singleton hcomma, List.map_singleton,
    String.ofList_toList, List.filterMap_cons_some h.nonBlank?_eq, List.filterMap_nil]

section

variable {first last day : Day}

/-- A dashed text of a year lies between the keys of two days iff the first one is of an earlier
year, and the last one not. -/
theorem Day.BeginsDashed.between_iff {s : String} (hs : day.BeginsDashed s)
    (hfirst : first.HasFourPlaceYear)
    (hlast : last.HasFourPlaceYear) (hplaces : day.HasFourPlaceYear) :
    (first.key ≤ s ∧ s ≤ last.key) ↔ first.year < day.year ∧ day.year ≤ last.year := by
  rw [← String.not_lt, ← String.not_lt, hs.lt_key_iff hfirst hplaces, hs.key_lt_iff hlast hplaces]
  omega

/-- A day of a year between those of two days, and not of either, lies between the days. -/
theorem Day.between_or_iff_of_year :
    ((first ≤ day ∧ day ≤ last) ∨ (first.year < day.year ∧ day.year ≤ last.year)) ↔
      (first ≤ day ∧ day ≤ last) ∨ (first.year < day.year ∧ day.year = last.year) := by
  simp only [Day.le_iff, Day.lt_iff]
  omega

/-- What a filter on days finds, where the only value under the name is a day:
* It finds an entity iff the day of its value lies in the range, or the value without the blanks
  around it, an option of it or a word of it lies between the keys of the ends.
* For a value that is one word without a comma, this says that the compact form is found by its day
  alone, and that a form with dashes (`Day.BeginsDashed`) is also found if it is of the year in
  which the range ends and the range begins in an earlier one. -/
theorem dateFilter_finds_iff {schema : Schema} {f : FieldDefinition} (hf : f ∈ schema.fields)
    (hkind : f.kind = .dateInput) {e : Entity} (hapart : f.IsApart e) {i : Index}
    {later : List Change}
    (others : ∀ c ∈ later, c.id ≠ e.id) {d : Domain} (hd : d.Covers e.kind) {scope : Scope}
    {value v : String}
    (hv : Text.nonBlank? value = some v) (hpair : Description.dayPair? v = some (first, last))
    (hfirst : first.HasFourPlaceYear) (hlast : last.HasFourPlaceYear) {stored : String}
    (hstored : ∀ s, e.Stores f.name s ↔ s = stored) (hday : Day.read? stored = some day)
    (hplaces : day.HasFourPlaceYear) :
    ((i.storing e later).Finds ((Description.byProperty d f.name value).compile schema scope) e.id ↔
      (first ≤ day ∧ day ≤ last) ∨ ∃ t, (t = Text.trimmed stored ∨
        t ∈ Description.options (Text.trimmed stored) ∨ t ∈ Text.words (Text.trimmed stored)) ∧
          first.key ≤ Text.fold t ∧ Text.fold t ≤ last.key) ∧
    (Text.IsWord (Text.trimmed stored) → ',' ∉ (Text.trimmed stored).toList →
      (Text.trimmed stored = day.key →
        ((i.storing e later).Finds
          ((Description.byProperty d f.name value).compile schema scope) e.id ↔
          first ≤ day ∧ day ≤ last)) ∧
      (day.BeginsDashed (Text.trimmed stored) →
        ((i.storing e later).Finds
          ((Description.byProperty d f.name value).compile schema scope) e.id ↔
            (first ≤ day ∧ day ≤ last) ∨ (first.year < day.year ∧ day.year = last.year)))) := by
  have hpatterns : ∀ c ∈ Description.propertyClauses f.kind f.name v,
      c.condition.patterns = [] := by
    rw [hkind, Description.propertyClauses, hpair]
    exact List.forall_mem_singleton.mpr (Clause.patterns_range _ _ _)
  have hasked : e.PassesProperty f.kind f.name v ↔
      e.HasValue f.name fun t => first.key ≤ t ∧ t ≤ last.key := by
    rw [← Entity.hasProperty_iff_hasValue hapart, hkind, Entity.PassesProperty, hpair]
    constructor
    · intro h
      exact h first last rfl
    · rintro h _ _ ⟨⟩
      exact h
  rw [finds_byProperty_iff hf others hd hv hapart.routed hpatterns, hasked,
    Entity.hasValue_iff_of_day hstored hday, Day.key_between_iff hfirst hlast]
  refine ⟨Iff.rfl, fun hword hcomma => ?_⟩
  -- The word, its option and its only word are one text.
  have hself : (∃ t, (t = Text.trimmed stored ∨ t ∈ Description.options (Text.trimmed stored) ∨
      t ∈ Text.words (Text.trimmed stored)) ∧ first.key ≤ Text.fold t ∧ Text.fold t ≤ last.key) ↔
      first.key ≤ Text.fold (Text.trimmed stored) ∧ Text.fold (Text.trimmed stored) ≤ last.key := by
    simp only [hword.options_eq hcomma, hword.words_eq, List.mem_singleton, or_self, exists_eq_left]
  rw [hself]
  constructor
  · intro hkey
    rw [hkey, day.fold_key, Day.key_between_iff hfirst hlast, or_self]
  · intro hdashed
    rw [hdashed.fold.between_iff hfirst hlast hplaces, Day.between_or_iff_of_year]

end

/-- A day with dashes is not found by a range of its year that ends before it. -/
theorem dateFilter_finds_march :
    ¬ ReportFound "due" "2024-03-15" "due" "2024-01-01,2024-02-01" := by
  have hfield : ⟨"due", "Due", .dateInput, "form"⟩ ∈ filterSchema.fields := by decide
  have hapart :
      FieldDefinition.IsApart ⟨"due", "Due", .dateInput, "form"⟩ (reportWith "due" "2024-03-15") :=
    ⟨by decide, by decide, by decide⟩
  have hasked : Text.nonBlank? "2024-01-01,2024-02-01" = some "2024-01-01,2024-02-01" := by
    decide +kernel
  have hpair : Description.dayPair? "2024-01-01,2024-02-01" =
      some (⟨2024, 1, 1, by decide⟩, ⟨2024, 2, 1, by decide⟩) := by decide +kernel
  have hstored : ∀ s, (reportWith "due" "2024-03-15").Stores "due" s ↔ s = "2024-03-15" := by
    intro s
    rw [stores_reportWith_iff]
    exact and_iff_right (by decide +kernel)
  have hday : Day.read? "2024-03-15" = some ⟨2024, 3, 15, by decide⟩ := by decide +kernel
  have htrimmed : Text.trimmed "2024-03-15" = "2024-03-15" := by decide +kernel
  obtain ⟨_, hword⟩ :=
    dateFilter_finds_iff (i := Index.empty 100) hfield rfl hapart (List.forall_mem_nil _)
    (covers_reportWith _ _) hasked hpair (by decide) (by decide) hstored hday (by decide)
  rw [htrimmed] at hword
  obtain ⟨_, hdashed⟩ := hword (by decide +kernel) (by decide)
  rw [ReportFound, hdashed ⟨_, rfl⟩]
  decide

/-- A day with dashes is found by a range that ends before it in its year and begins in the year
before. -/
theorem dateFilter_finds_outside : ReportFound "due" "2024-03-15" "due" "2023-12-01,2024-01-31" ∧
    ∃ first last day : Day, Description.dayPair? "2023-12-01,2024-01-31" = some (first, last) ∧
      Day.read? "2024-03-15" = some day ∧ ¬ day ≤ last := by
  have hfound : ReportFound "due" "2024-03-15" "due" "2023-12-01,2024-01-31" := by decide +kernel
  refine ⟨hfound, ⟨2023, 12, 1, by decide⟩, ⟨2024, 1, 31, by decide⟩, ⟨2024, 3, 15, by decide⟩, ?_⟩
  decide +kernel

end DocSearch
