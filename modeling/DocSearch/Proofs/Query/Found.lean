import DocSearch.Proofs.Index.EntityValues
import DocSearch.Proofs.Index.Meaning
import DocSearch.Proofs.Index.Stored
import DocSearch.Proofs.Query.Admission
import DocSearch.Proofs.Sorted.Entries

/-!
# What a description finds

The compiled description finds the entities that the description asks for: the document of an entity
meets the compiled condition iff the description admits the entity
(`Description.holdsBy_compile_iff`).

* `Description.Pass` says that the document of an entity passes some clauses.  The clauses of each
  filter have a lemma of their own, which says what it is that the document passes all of them: the
  words in `pass_wordClauses`, the name in `pass_nameClause`, the path in `pass_pathClause`, values
  as they are in `pass_exact_verbatim`, and patterns in `pass_wildcard_folded`.
* They are put together domain by domain (`pass_ownClauses`), and for the filters of every domain
  (`pass_commonClauses`).

The lemmas take any reading `has` of phrases, so they hold of what is found and of what is ranked.
-/

namespace DocSearch

theorem Document.hasProperty_ofEntity {e : Entity} {name : String} {suits : String → Prop} :
    (ofEntity e).HasProperty name suits ↔ e.HasProperty name suits := by
  simp only [HasProperty, mem_terms_of_folded (f := .property) rfl, Entity.valuesOf,
    List.mem_flatMap, List.mem_map]
  constructor
  · rintro ⟨value, ⟨_, ⟨p, hp, t, ht, rfl⟩, heq⟩, hsuits⟩
    exact ⟨p, hp, t, ht, value, heq.symm, hsuits⟩
  · rintro ⟨p, hp, t, ht, value, heq, hsuits⟩
    exact ⟨value, ⟨_, ⟨p, hp, t, ht, rfl⟩, heq.symm⟩, hsuits⟩

/-! ## The clauses of each filter -/

namespace Description

variable {has : Phrase → List Token → Bool} {q : Description} {schema : Schema} {scope : Scope}
  {e : Entity}

/-- All clauses `cs` admit the document of the entity. -/
def Pass (has : Phrase → List Token → Bool) (e : Entity) (cs : List Clause) : Prop :=
  ∀ c ∈ cs, c.Admits has (.ofEntity e)

theorem pass_append {cs ds : List Clause} :
    Pass has e (cs ++ ds) ↔ Pass has e cs ∧ Pass has e ds := List.forall_mem_append

theorem pass_singleton {c : Clause} : Pass has e [c] ↔ c.Admits has (.ofEntity e) :=
  List.forall_mem_singleton

/-- The clauses for a `value` that may be missing are those of a filter that may be missing
(`Asks`). -/
theorem pass_asked {value : Option String} {clauses : String → List Clause} {filter : String → Prop}
    (h : ∀ v, Pass has e (clauses v) ↔ filter v) :
    Pass has e (asked value clauses) ↔ Asks value filter := by
  unfold asked Asks
  cases value.bind Text.nonBlank? with
  | none => simp [Pass]
  | some v => exact h v

/-- A pattern for a field whose values are found in lower case (`Analysis.folded`). -/
theorem admits_wildcard_folded {f : Field} (hf : f ∈ Field.ofClauses) (hfold : f.analysis = .folded)
    {p : String} : Clause.Admits has (.ofEntity e) (.wildcard f.label (Text.lower p)) ↔
      ∃ v ∈ e.valuesOf f, Wildcard.Matches p (Text.fold v) := by
  rw [Clause.admits_wildcard hf]
  simp only [Document.mem_terms_of_folded hfold, ← Wildcard.matches_iff]
  constructor
  · rintro ⟨t, ⟨v, hv, rfl⟩, hfits⟩
    exact ⟨v, hv, hfits⟩
  · rintro ⟨v, hv, hfits⟩
    exact ⟨_, ⟨v, hv, rfl⟩, hfits⟩

/-- A value for a field whose values are found as they are (`Analysis.verbatim`). -/
theorem admits_exact_verbatim {f : Field} (hf : f ∈ Field.ofClauses)
    (hverb : f.analysis = .verbatim)
    {v : String} : Clause.Admits has (.ofEntity e) (.exact f.label v) ↔ v ∈ e.valuesOf f := by
  rw [Clause.admits_exact hf, Document.mem_terms_of_verbatim hverb]

/-- The words of a `value`, asked of the field for the kind of the entity. -/
theorem pass_wordClauses {f : Field} (hf : f ∈ Field.ofClauses)
    (hbody : Document.bodyField e.kind = f)
    (value : String) : Pass has e (wordClauses f.label value) ↔ e.HasWords value := by
  subst hbody
  simp only [Pass, wordClauses, List.forall_mem_map, Entity.HasWords, Clause.admits_wildcard hf,
    Document.mem_terms_bodyField, ← Wildcard.matches_iff]
  refine forall₂_congr fun w _ => ?_
  constructor
  · rintro ⟨_, ⟨t, ht, rfl⟩, hfits⟩
    exact ⟨t, ht, hfits⟩
  · rintro ⟨t, ht, hfits⟩
    exact ⟨_, ⟨t, ht, rfl⟩, hfits⟩

/-- The clause for the name asks for what `Entity.HasName` says. -/
theorem pass_nameClause (value : String) : Pass has e [nameClause value] ↔ e.HasName value := by
  rw [pass_singleton, nameClause, admits_wildcard_folded (by decide) rfl]
  simp [Entity.valuesOf, Entity.HasName]

/-- The clause for the path asks for what `Entity.LiesUnder` says. -/
theorem pass_pathClause (value : String) :
    Pass has e [pathClause value scope] ↔ e.LiesUnder scope value := by
  rw [pass_singleton, pathClause, Scope.isEmpty, Entity.LiesUnder]
  cases scope.root with
  | none =>
    rw [Option.isNone_none, if_pos rfl, Clause.admits_wildcard (by decide)]
    simp [Document.mem_terms_of_folded (f := .context) rfl, Entity.valuesOf]
  | some root =>
    rw [Option.isNone_some, if_neg Bool.false_ne_true, Clause.admits_group_any]
    -- One clause for each folder: the entity has one parent, which fits one of them at most.
    have hparent : ∀ id, Clause.Admits has (.ofEntity e) (.exact Field.parent.label id) ↔
        e.parent = some id := by
      intro id
      rw [admits_exact_verbatim (by decide) rfl, Entity.valuesOf, Option.mem_toList]
    constructor
    · rintro ⟨c, hc, hadmits⟩
      obtain ⟨id, hid, rfl⟩ := List.mem_map.mp hc
      exact ⟨id, (hparent id).mp hadmits, hid⟩
    · rintro ⟨id, hid, hmem⟩
      exact ⟨_, List.mem_map.mpr ⟨id, hmem, rfl⟩, (hparent id).mpr hid⟩

/-- A value `v` asked for as it is. -/
theorem pass_exact_verbatim {f : Field} (hf : f ∈ Field.ofClauses) (hverb : f.analysis = .verbatim)
    (v : String) : Pass has e [.exact f.label v] ↔ v ∈ e.valuesOf f := by
  rw [pass_singleton, admits_exact_verbatim hf hverb]

/-- A pattern `p` asked of one of some values. -/
theorem pass_wildcard_folded {f : Field} (hf : f ∈ Field.ofClauses) (hfold : f.analysis = .folded)
    (p : String) : Pass has e [.wildcard f.label (Text.lower p)] ↔
      ∃ v ∈ e.valuesOf f, Wildcard.Matches p (Text.fold v) := by
  rw [pass_singleton, admits_wildcard_folded hf hfold]

/-- The clauses for the last change ask for a day between the bounds, if both are there. -/
theorem pass_lastModifiedClauses : Pass has e q.lastModifiedClauses ↔
    ∀ first last, q.lastModifiedFrom = some first → q.lastModifiedTo = some last →
      e.ChangedBetween first last := by
  unfold lastModifiedClauses
  split
  · rename_i first last hfirst hlast
    rw [pass_singleton, Clause.admits_range (by decide)]
    simp [Document.mem_terms_of_verbatim (f := .lastModified) rfl, Entity.valuesOf, hfirst, hlast,
      Entity.ChangedBetween]
  · rename_i hmissing
    constructor
    · intro _ first last hfirst hlast
      exact absurd hlast (hmissing first last hfirst)
    · intro _ c hc
      cases hc

/-! ## The clauses of a domain -/

theorem pass_mimeTypeClauses :
    Pass has e (asked q.mimeType fun v => [.exact Field.mimeType.label v]) ↔
      Asks q.mimeType fun v => e.mimeType = some v :=
  pass_asked fun v => (pass_exact_verbatim (by decide) rfl v).trans Option.mem_toList

theorem pass_authorClauses :
    Pass has e (asked q.author fun v => [.exact Field.author.label v]) ↔
      Asks q.author fun v => e.author = some v :=
  pass_asked fun v => (pass_exact_verbatim (by decide) rfl v).trans Option.mem_toList

/-- A pattern for a value that an entity has at most once (`held`). -/
theorem pass_optionClauses {f : Field} (hf : f ∈ Field.ofClauses) (hfold : f.analysis = .folded)
    {held : Option String} (hheld : e.valuesOf f = held.toList) (value : Option String) :
    Pass has e (asked value fun v => [.wildcard f.label (Text.lower v)]) ↔
      Asks value fun v => ∃ s, held = some s ∧ Wildcard.Matches v (Text.fold s) := by
  refine pass_asked fun v => ?_
  rw [pass_wildcard_folded hf hfold, hheld]
  simp only [Option.mem_toList]

theorem pass_documentClauses (hkind : Domain.document.Covers e.kind) :
    Pass has e (q.documentClauses scope) ↔ q.AsksOfDocument scope e := by
  have hbody : Document.bodyField e.kind = .text := by
    rcases hkind with h | h <;> rw [h] <;> rfl
  simp only [documentClauses, pass_append,
    pass_asked (pass_wordClauses (f := .text) (by decide) hbody), pass_asked pass_nameClause,
    pass_asked pass_pathClause, pass_mimeTypeClauses, pass_authorClauses, pass_lastModifiedClauses]
  constructor
  · rintro ⟨⟨⟨⟨⟨content, name⟩, path⟩, mimeType⟩, author⟩, lastModified⟩
    exact ⟨content, name, path, mimeType, author, lastModified⟩
  · rintro ⟨content, name, path, mimeType, author, lastModified⟩
    exact ⟨⟨⟨⟨⟨content, name⟩, path⟩, mimeType⟩, author⟩, lastModified⟩

theorem pass_folderClauses : Pass has e (q.folderClauses scope) ↔ q.AsksOfFolder scope e := by
  simp only [folderClauses, pass_append, pass_asked pass_nameClause, pass_asked pass_pathClause]
  constructor
  · rintro ⟨name, path⟩
    exact ⟨name, path⟩
  · rintro ⟨name, path⟩
    exact ⟨name, path⟩

theorem pass_mailClauses (hkind : Domain.mail.Covers e.kind) :
    Pass has e (q.mailClauses scope) ↔ q.AsksOfMail scope e := by
  have hbody : Document.bodyField e.kind = .content := by
    rw [show e.kind = .mail from hkind]
    rfl
  simp only [mailClauses, pass_append,
    pass_asked (pass_wordClauses (f := .content) (by decide) hbody), pass_asked pass_pathClause,
    pass_optionClauses (f := .subject) (by decide) rfl rfl,
    pass_optionClauses (f := .sender) (by decide) rfl rfl,
    pass_asked (pass_wildcard_folded (f := .recipient) (by decide) rfl), pass_mimeTypeClauses]
  constructor
  · rintro ⟨⟨⟨⟨⟨path, content⟩, subject⟩, sender⟩, recipient⟩, mimeType⟩
    exact ⟨path, content, subject, sender, recipient, mimeType⟩
  · rintro ⟨path, content, subject, sender, recipient, mimeType⟩
    exact ⟨⟨⟨⟨⟨path, content⟩, subject⟩, sender⟩, recipient⟩, mimeType⟩

/-- The clauses of a domain ask for what `AsksOf` says of it. -/
theorem pass_ownClauses {d : Domain} (hkind : d.Covers e.kind) :
    Pass has e (q.ownClauses scope d) ↔ q.AsksOf scope e d := by
  cases d with
  | document => exact pass_documentClauses hkind
  | folder => exact pass_folderClauses
  | mail => exact pass_mailClauses hkind

/-! ## The clauses of every domain -/

section

variable {name : String} (hname : Field.ofClause? name = none)

include hname

/-- The words of a `value`, asked of a property: each is a pattern for some word of it. -/
theorem pass_wordClauses_property (value : String) : Pass has e (wordClauses name value) ↔
    ∀ w ∈ Text.words value, e.HasProperty name fun v => Wildcard.Matches w v := by
  simp only [Pass, wordClauses, List.forall_mem_map, Clause.admits_wildcard_property hname,
    Document.hasProperty_ofEntity, Wildcard.matches_iff]

/-- The clauses for a property ask for what `Entity.PassesProperty` says for its `kind`. -/
theorem pass_propertyClauses (kind : FieldKind) (value : String) :
    Pass has e (propertyClauses kind name value) ↔ e.PassesProperty kind name value := by
  cases kind with
  | selectSingle =>
    rw [propertyClauses, pass_singleton, Clause.admits_exact_property hname,
      Document.hasProperty_ofEntity, Text.lower_lower, Entity.PassesProperty]
  | selectMultiple =>
    simp only [propertyClauses, Pass, List.forall_mem_map, Clause.admits_exact_property hname,
      Document.hasProperty_ofEntity, Text.lower_lower, Entity.PassesProperty]
  | textInput => exact pass_wordClauses_property hname value
  | textArea => exact pass_wordClauses_property hname value
  | other =>
    rw [propertyClauses, pass_singleton, Clause.admits_wildcard_property hname,
      Document.hasProperty_ofEntity, Entity.PassesProperty]
    simp only [Wildcard.matches_iff]
  | dateInput =>
    rw [propertyClauses, Entity.PassesProperty]
    cases dayPair? value with
    | none => simp [Pass]
    | some days =>
      obtain ⟨first, last⟩ := days
      simp [pass_singleton, Clause.admits_range_property hname, Document.hasProperty_ofEntity]

end

/-- A filter on a property that the `schema` does not have asks for nothing. -/
theorem pass_filterClauses (routed : ∀ f ∈ schema.fields, Field.ofClause? f.name = none)
    (name value : String) : Pass has e (filterClauses schema name value) ↔
      Asks (some value) fun v => ∀ f, schema.field? name = some f →
        e.PassesProperty f.kind name v := by
  rw [filterClauses, Asks, Option.bind_some]
  cases hv : Text.nonBlank? value with
  | none => simp [Pass]
  | some v =>
    cases hf : schema.field? name with
    | none => simp [Pass]
    | some f =>
      have hmem := List.mem_of_find?_eq_some hf
      have heq : f.name = name := by simpa using List.find?_some hf
      have hname : Field.ofClause? name = none := heq ▸ routed f hmem
      simp [pass_propertyClauses hname]

theorem asks_iff {value : Option String} {filter : String → Prop} :
    Asks value filter ↔ ∀ v, value.bind Text.nonBlank? = some v → filter v := by
  unfold Asks
  cases value.bind Text.nonBlank? with
  | none => simp
  | some v => simp

/-- A clause for each of some `values` that is not blank. -/
theorem pass_listed {values : SortedSet String} {clause : String → Clause} {filter : String → Prop}
    (h : ∀ v, (clause v).Admits has (.ofEntity e) ↔ filter v) :
    Pass has e ((values.toList.filterMap Text.nonBlank?).map clause) ↔
      ∀ k ∈ values, Asks (some k) filter := by
  simp only [Pass, List.forall_mem_map, List.mem_filterMap, asks_iff, Option.bind_some, h]
  constructor
  · intro hall k hk v hv
    exact hall v ⟨k, hk, hv⟩
  · rintro hall v ⟨k, hk, hv⟩
    exact hall k hk v hv

/-- The clauses of every domain ask for what `AsksOfAny` says. -/
theorem pass_commonClauses (routed : ∀ f ∈ schema.fields, Field.ofClause? f.name = none) :
    Pass has e (q.commonClauses schema) ↔ q.AsksOfAny schema e := by
  have hproperties :
      Pass has e (q.properties.entries.flatMap fun p => filterClauses schema p.1 p.2) ↔
        ∀ name value, q.properties.get? name = some value → Asks (some value) fun v =>
          ∀ f, schema.field? name = some f → e.PassesProperty f.kind name v := by
    have hfilter : ∀ name value, Pass has e (filterClauses schema name value) ↔ _ :=
      pass_filterClauses routed
    simp only [SortedMap.get?_eq_some_iff, ← hfilter]
    simp only [Pass, List.mem_flatMap]
    constructor
    · intro hall name value hp c hc
      exact hall c ⟨(name, value), hp, hc⟩
    · rintro hall c ⟨p, hp, hc⟩
      exact hall p.1 p.2 hp c hc
  rw [commonClauses, pass_append, pass_append, hproperties,
    pass_listed fun _ => admits_wildcard_folded (f := .keyword) (by decide) rfl,
    pass_listed fun _ => admits_exact_verbatim (f := .category) (by decide) rfl]
  constructor
  · rintro ⟨⟨keywords, categories⟩, properties⟩
    exact ⟨keywords, categories, properties⟩
  · rintro ⟨keywords, categories, properties⟩
    exact ⟨⟨keywords, categories⟩, properties⟩

/-! ## What is found -/

/-- The kinds that a domain looks for are those it `Covers`. -/
theorem mem_kinds_iff {d : Domain} : (∃ k ∈ d.kinds, k.label ∈ (Document.ofEntity e).terms .kind) ↔
    d.Covers e.kind := by
  simp only [Document.mem_terms_kind]
  cases d <;> simp [Domain.kinds, Domain.Covers]

/-- The document of an entity meets the compiled description iff the description asks for the entity
(`Admits`). -/
theorem holdsBy_compile_iff (routed : ∀ f ∈ schema.fields, Field.ofClause? f.name = none) :
    (q.compile schema scope).condition.holdsBy has (.ofEntity e) = true ↔
      q.Admits schema scope e := by
  rw [Compiled.holdsBy_iff, compile, Admits]
  simp only [List.mem_map, exists_exists_and_eq_and]
  refine exists_congr fun d => and_congr_right fun _ => ?_
  rw [DomainQuery.holdsBy_iff, mem_kinds_iff, Group.holdsBy_all]
  refine and_congr_right fun hkind => ?_
  exact pass_append.trans (and_congr (pass_ownClauses hkind) (pass_commonClauses routed))

/-! ### A report, and a search for it -/

/-- A schema of one property, `color`, that is chosen from a list. -/
def colorSchema : Schema :=
  ⟨[⟨"look", "Look", [⟨"color", "Color", .selectSingle, "look"⟩]⟩], by decide⟩

/-- A report with a colour. -/
def redReport : Entity where
  id := "7"
  kind := .document
  path := "/okm:root/Report.pdf"
  parent := some "1"
  content := "Yearly figures"
  author := none
  mimeType := none
  keywords := .ofList ["Finance"]
  categories := .empty
  properties := .ofList [("Color", "Red")]
  lastModified := .epoch
  subject := none
  sender := none
  recipients := []

/-- The search for red reports. -/
def redReports : Description :=
  { documents with
    name := some "report"
    content := some "Year* figures"
    keywords := .ofList ["FINANCE"]
    properties := .ofList [("color", " red ")] }

end Description

end DocSearch
