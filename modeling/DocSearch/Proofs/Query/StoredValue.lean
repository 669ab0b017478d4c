import DocSearch.Proofs.Calendar.DayText
import DocSearch.Proofs.Query.OwnWords
import DocSearch.Proofs.Query.PropertyFilters
import DocSearch.Proofs.Text.LoweredParts

/-!
# Finding an entity by a value that it holds

A filter takes a value apart by the kind of its property: into options, into words, into two days,
or not at all.  A stored value is entered whole, with its options, its words and the key of its day,
whatever its kind (`propertyTerms`).

* So each part that a filter asks for has its counterpart among the texts that the value is found by
  (`Entity.passesProperty_of_stored`, `Entity.passesProperty_of_day`).
* Wildcards in the value do no harm: a pattern stands for itself (`Wildcard.fits_self`).
* Where the two forms of lower case agree on a value, they do on each part of it
  (`Text.lower_eq_fold_of_mem_words`, `Description.lower_eq_fold_of_mem_options`).

The filter made from a stored value therefore finds the entity that holds it (`storedValue_finds`).
-/

namespace DocSearch

/-- A pattern stands for its own text, among others. -/
theorem Wildcard.fits_self : ∀ cs : List Char, Fits (cs.map piece) cs
  | [] => rfl
  | c :: cs => by
    have ih := fits_self cs
    rw [List.map_cons]
    by_cases hstar : c = '*'
    · subst hstar
      exact ⟨['*'], cs, rfl, List.forall_mem_singleton.mpr (by decide), ih⟩
    · by_cases hmark : c = '?'
      · subst hmark
        exact ⟨'?', cs, rfl, by decide, ih⟩
      · have hpiece : piece c = .literal c := by rw [piece, if_neg hstar, if_neg hmark]
        rw [hpiece]
        exact ⟨cs, rfl, ih⟩

/-- A text whose forms of lower case agree is one that it stands for as a pattern. -/
theorem Wildcard.matches_fold_self {s : String} (h : Text.lower s = Text.fold s) :
    Matches s (Text.fold s) := by
  rw [matches_iff, h]
  exact fits_self _

/-! ## Parts of a value -/

section

variable {s : String} (h : Text.lower s = Text.fold s)

include h

theorem Text.lower_eq_fold_of_nonBlank? {t : String} (ht : nonBlank? s = some t) :
    lower t = fold t := by
  rw [eq_trimmed_of_nonBlank? ht]
  exact lower_eq_fold_of_isParted (isParted_trimmed s) h

theorem Text.lower_eq_fold_of_mem_words {w : String} (hw : w ∈ words s) : lower w = fold w :=
  lower_eq_fold_of_isParted (isParted_of_mem_words hw) h

theorem Description.lower_eq_fold_of_mem_options {o : String} (ho : o ∈ options s) :
    Text.lower o = Text.fold o := by
  obtain ⟨piece, hpiece, ho⟩ := List.mem_filterMap.mp ho
  have hpiece := Text.lower_eq_fold_of_isParted (Text.isParted_of_mem_pieces hpiece) h
  exact Text.lower_eq_fold_of_nonBlank? hpiece ho

end

/-- A text that states a `day`, twice with a comma between, states the two days. -/
theorem Description.dayPair?_twice {s : String} {day : Day} (h : Day.read? s = some day) :
    ∃ v, Text.nonBlank? (s ++ "," ++ s) = some v ∧ dayPair? v = some (day, day) := by
  have hcomma := Day.comma_not_mem_of_read? h
  have htrim : (Text.trimmed (s ++ "," ++ s)).toList =
      Text.trimStart Text.isBlank s.toList ++ ',' :: Text.trimEnd Text.isBlank s.toList := by
    have htwice : (s ++ "," ++ s).toList = s.toList ++ ',' :: s.toList := by simp
    rw [Text.toList_trimmed, htwice, Text.trim_append_cons (by decide)]
  have hblank : Text.nonBlank? (s ++ "," ++ s) = some (Text.trimmed (s ++ "," ++ s)) := by
    refine if_neg fun hempty => ?_
    rw [String.isEmpty_iff.mp hempty] at htrim
    simp at htrim
  -- No day is written with a comma, so the text falls into two pieces and no more.
  have hpieces : Text.pieces ',' (Text.trimmed (s ++ "," ++ s)) =
      [String.ofList (Text.trimStart Text.isBlank s.toList),
        String.ofList (Text.trimEnd Text.isBlank s.toList)] := by
    have hplain : ∀ l ∈ [Text.trimStart Text.isBlank s.toList, Text.trimEnd Text.isBlank s.toList],
        ',' ∉ l := by
      rw [List.forall_mem_cons, List.forall_mem_singleton]
      refine ⟨fun hmem => hcomma ?_, fun hmem => hcomma ?_⟩
      · exact (List.dropWhile_sublist _).mem hmem
      · exact List.mem_reverse.mp ((List.dropWhile_sublist _).mem (List.mem_reverse.mp hmem))
    have hjoined := List.splitOn_intercalate ',' hplain (List.cons_ne_nil _ _)
    rw [List.intercalate_cons_cons, List.intercalate_singleton, List.append_assoc,
      List.singleton_append] at hjoined
    rw [Text.pieces, htrim, hjoined]
    rfl
  have hfirst : Day.read? (String.ofList (Text.trimStart Text.isBlank s.toList)) = some day := by
    rw [Day.read?, String.toList_ofList, Text.trim_trimStart, ← Day.read?, h]
  have hlast : Day.read? (String.ofList (Text.trimEnd Text.isBlank s.toList)) = some day := by
    rw [Day.read?, String.toList_ofList, Text.trim_trimEnd, ← Day.read?, h]
  refine ⟨_, hblank, ?_⟩
  rw [dayPair?, hpieces]
  change (do pure (← Day.read? _, ← Day.read? _)) = _
  rw [hfirst, hlast]
  rfl

/-! ## The entity that holds the value -/

namespace Entity

variable {e : Entity} {name stored : String} (hstored : e.properties.get? name = some stored)
variable (hname : Text.lower name = Text.fold name)

include hstored hname

/-- A `stored` value is found under its `name` by the texts that it is found by. -/
theorem hasProperty_of_stored {suits : String → Prop}
    (h : ∃ t ∈ propertyTerms stored, suits (Text.fold t)) :
    e.HasProperty name suits := by
  obtain ⟨t, ht, hsuits⟩ := h
  refine ⟨(name, stored), SortedMap.get?_eq_some_iff.mp hstored, t, ht, Text.fold t, ?_, hsuits⟩
  have hequals : Text.lowerChar '=' = ['='] := by decide +kernel
  rw [hname, ← String.toList_inj]
  simp [propertyTerm, Text.toList_fold, Text.lowerEach_append, Text.lowerEach_cons, hequals]

/-- An entity passes the filter made from a value that it holds, if the property is not one of
days. -/
theorem passesProperty_of_stored {v : String} (hv : Text.nonBlank? stored = some v)
    (hvalue : Text.lower stored = Text.fold stored) {kind : FieldKind} (hkind : kind ≠ .dateInput) :
    e.PassesProperty kind name v := by
  have hlower : Text.lower v = Text.fold v := Text.lower_eq_fold_of_nonBlank? hvalue hv
  have hfound : ∀ {suits : String → Prop},
      (suits (Text.fold v) ∨ (∃ o ∈ Description.options v, suits (Text.fold o)) ∨
        ∃ w ∈ Text.words v, suits (Text.fold w)) → e.HasProperty name suits := by
    intro suits h
    refine hasProperty_of_stored hstored hname (exists_propertyTerm_iff.mpr ⟨v, hv, ?_⟩)
    rcases h with h | h | h
    · exact .inl h
    · exact .inr (.inl h)
    · exact .inr (.inr (.inl h))
  have hwords : ∀ w ∈ Text.words v, e.HasProperty name fun t => Wildcard.Matches w t := by
    intro w hw
    have hword := Text.lower_eq_fold_of_mem_words hlower hw
    exact hfound (.inr (.inr ⟨w, hw, Wildcard.matches_fold_self hword⟩))
  cases kind with
  | selectSingle => exact hfound (.inl hlower.symm)
  | selectMultiple =>
    intro o ho
    exact hfound (.inr (.inl ⟨o, ho, (Description.lower_eq_fold_of_mem_options hlower ho).symm⟩))
  | textInput => exact hwords
  | textArea => exact hwords
  | other => exact hfound (.inl (Wildcard.matches_fold_self hlower))
  | dateInput => exact absurd rfl hkind

/-- If the property is one of days, an entity passes the filter for the `day` that it holds. -/
theorem passesProperty_of_day {day : Day} (hday : Day.read? stored = some day) {v : String}
    (hpair : Description.dayPair? v = some (day, day)) : e.PassesProperty .dateInput name v := by
  intro first last heq
  rw [hpair] at heq
  cases heq
  have hread : Day.read? (Text.trimmed stored) = some day := (Day.read?_trimmed stored).trans hday
  have hfound : ∃ t ∈ propertyTerms stored, day.key ≤ Text.fold t ∧ Text.fold t ≤ day.key := by
    refine (@exists_propertyTerm_iff stored fun t => day.key ≤ t ∧ t ≤ day.key).mpr ?_
    exact ⟨_, Day.nonBlank?_of_read? hday,
      .inr (.inr (.inr ⟨day, hread, String.le_refl _, String.le_refl _⟩))⟩
  exact hasProperty_of_stored hstored hname hfound

end Entity

/-- The filter made from a value that an entity holds finds the entity: for a property that is
chosen or written, the value itself, and for one of days, the range from the day to itself.  Both
forms of lower case agree on the name of the property and on the value (`Text.lower`, `Text.fold`),
and the index can look for the patterns of the filter.  The value is one that the index keeps whole,
of up to 65530 bytes with the name. -/
theorem storedValue_finds {schema : Schema} {f : FieldDefinition} (hf : f ∈ schema.fields)
    (hrouted : Field.ofClause? f.name = none) {e : Entity} {stored v : String}
    (hstored : e.properties.get? f.name = some stored) (hv : Text.nonBlank? stored = some v)
    (hname : Text.lower f.name = Text.fold f.name)
    (hvalue : Text.lower stored = Text.fold stored) {i : Index} {later : List Change}
    (others : ∀ c ∈ later, c.id ≠ e.id) {d : Domain} (hd : d.Covers e.kind) {scope : Scope}
    (hsearchable : ∀ c ∈ Description.filterClauses schema f.name stored, ∀ p ∈ c.condition.patterns,
      Wildcard.isSearchable p = true) :
    (f.kind ≠ .dateInput →
      (i.storing e later).Finds
        ((Description.byProperty d f.name stored).compile schema scope) e.id) ∧
    (f.kind = .dateInput → ∀ day, Day.read? stored = some day →
      (i.storing e later).Finds
        ((Description.byProperty d f.name (stored ++ "," ++ stored)).compile schema scope)
          e.id) := by
  rw [Description.filterClauses, hv, Schema.field?_of_mem hf] at hsearchable
  constructor
  · intro hkind
    exact (finds_byProperty_iff_of_searchable hf others hd hv hrouted hsearchable).mpr
      (Entity.passesProperty_of_stored hstored hname hv hvalue hkind)
  · intro hkind day hday
    obtain ⟨twice, htwice, hpair⟩ := Description.dayPair?_twice hday
    -- A range of days has no pattern, so the index can look for it without more.
    have hpatterns : ∀ c ∈ Description.propertyClauses f.kind f.name twice,
        c.condition.patterns = [] := by
      rw [hkind, Description.propertyClauses, hpair]
      exact List.forall_mem_singleton.mpr (Clause.patterns_range _ _ _)
    rw [finds_byProperty_iff hf others hd htwice hrouted hpatterns, hkind]
    exact Entity.passesProperty_of_day hstored hname hday hpair

/-- Fields for a text, for a value that is not taken apart and for a day. -/
def valueSchema : Schema := ⟨[⟨"form", "Form", [⟨"note", "Note", .textArea, "form"⟩,
  ⟨"code", "Code", .other, "form"⟩, ⟨"due", "Due", .dateInput, "form"⟩]⟩], by decide⟩

/-- A value with wildcards and a bracket finds the report that holds it, word by word and as a
whole, and so does a day with blanks around it. -/
theorem storedValue_finds_patterns :
    (∀ name ∈ ["note", "code"], ((Index.empty 9).storing (reportWith name " A*[b, ?é ") []).Finds
      ((Description.byProperty .document name " A*[b, ?é ").compile valueSchema .empty) "7") ∧
    ((Index.empty 9).storing (reportWith "due" " 2024-03-15") []).Finds
      ((Description.byProperty .document "due" (" 2024-03-15" ++ "," ++ " 2024-03-15")).compile
        valueSchema .empty) "7" := by
  have hstored : ∀ name stored, (reportWith name stored).properties.get? name = some stored := by
    intro name stored
    exact SortedMap.get?_eq_some_iff.mpr (List.mem_singleton_self _)
  have hvalue : Text.nonBlank? " A*[b, ?é " = some "A*[b, ?é" := by decide +kernel
  have hlower : Text.lower " A*[b, ?é " = Text.fold " A*[b, ?é " := by decide +kernel
  rw [List.forall_mem_cons, List.forall_mem_singleton]
  refine ⟨⟨?_, ?_⟩, ?_⟩
  · have hfield : ⟨"note", "Note", .textArea, "form"⟩ ∈ valueSchema.fields := by decide
    exact (storedValue_finds hfield (by decide) (hstored _ _) hvalue (by decide +kernel) hlower
      (List.forall_mem_nil _) (covers_reportWith _ _) (by decide +kernel)).1 (by decide)
  · have hfield : ⟨"code", "Code", .other, "form"⟩ ∈ valueSchema.fields := by decide
    exact (storedValue_finds hfield (by decide) (hstored _ _) hvalue (by decide +kernel) hlower
      (List.forall_mem_nil _) (covers_reportWith _ _) (by decide +kernel)).1 (by decide)
  · have hfield : ⟨"due", "Due", .dateInput, "form"⟩ ∈ valueSchema.fields := by decide
    have hday : Day.read? " 2024-03-15" = some ⟨2024, 3, 15, by decide⟩ := by decide +kernel
    exact (storedValue_finds hfield (by decide) (hstored _ _) (Day.nonBlank?_of_read? hday)
      (by decide +kernel)
      (by decide +kernel) (List.forall_mem_nil _) (covers_reportWith _ _)
        (by decide +kernel)).2 rfl _ hday

end DocSearch
