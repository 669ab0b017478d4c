import DocSearch.Proofs.Index.Ranking
import DocSearch.Proofs.Query.Found
import DocSearch.Proofs.Query.ManyStates

/-!
# Finding one entity

`Index.Finds` says that the index can look for all patterns of a compiled query and that a document
of an identifier is among those found.

* The patterns of a query are those of its clauses (`Compiled.mem_patterns_iff`), and the query is
  accepted iff the index can look for all of them (`IndexRequest.condition_compiled_eq_ok_iff`).
* For an entity that was entered last under its identifier, whether it is found is a question about
  its document alone (`Index.finds_storing_iff`), and for a query of one domain one about the
  clauses for this domain (`Index.finds_alone_iff`).

With this the compiled description finds the entities that the description asks for, or the index
refuses it with an error (`Description.compile_finds_iff`).
-/

namespace DocSearch

/-! ## The patterns of a query -/

namespace Condition

/-- A condition is searchable iff the index can look for each of its patterns. -/
theorem isSearchable_iff {c : Condition} :
    c.isSearchable = true ↔ ∀ p ∈ c.patterns, Wildcard.isSearchable p = true := by
  rw [isSearchable, List.all_eq_true]
  simp only [List.mem_eraseDups]

theorem mem_partPatterns_iff {p : List Wildcard.Piece} {ps : List (Occur × Condition)} :
    p ∈ partPatterns ps ↔ ∃ q ∈ ps, p ∈ q.2.patterns := by
  induction ps with
  | nil => simp [partPatterns]
  | cons q ps ih => simp [partPatterns, ih]

theorem mem_patterns_allOf_iff {p : List Wildcard.Piece} {cs : List Condition} :
    p ∈ (allOf cs).patterns ↔ ∃ c ∈ cs, p ∈ c.patterns := by
  rw [allOf, patterns, mem_partPatterns_iff]
  simp

theorem mem_patterns_anyOf_iff {p : List Wildcard.Piece} {cs : List Condition} :
    p ∈ (anyOf cs).patterns ↔ ∃ c ∈ cs, p ∈ c.patterns := by
  rw [anyOf, patterns, mem_partPatterns_iff]
  simp

theorem mem_patterns_join_iff {p : List Wildcard.Piece} {k : Combinator} {cs : List Condition} :
    p ∈ (k.join cs).patterns ↔ ∃ c ∈ cs, p ∈ c.patterns := by
  cases k with
  | any => exact mem_patterns_anyOf_iff
  | all =>
    cases cs with
    | nil => simp [Combinator.join, patterns]
    | cons c cs => exact mem_patterns_allOf_iff

end Condition

theorem Clause.patterns_wildcard {f : Field} (h : f ∈ Field.ofClauses) (pattern : String) :
    (wildcard f.label pattern).condition.patterns = [Wildcard.pattern pattern] := by
  rw [condition, Target.of_label h]
  rfl

/-- The patterns of a compiled query are those of its clauses. -/
theorem Compiled.mem_patterns_iff {q : Compiled} {p : List Wildcard.Piece} :
    p ∈ q.condition.patterns ↔ ∃ d ∈ q.domains, ∃ c ∈ d.group.clauses,
    p ∈ c.condition.patterns := by
  have hkinds : ∀ d : Domain, p ∉ d.condition.patterns := by
    intro d
    rw [Domain.condition, Condition.mem_patterns_anyOf_iff]
    simp [Condition.patterns]
  rw [Compiled.condition, Condition.mem_patterns_anyOf_iff]
  simp only [List.mem_map, exists_exists_and_eq_and]
  refine exists_congr fun d => and_congr_right fun _ => ?_
  rw [DomainQuery.condition, Condition.mem_patterns_allOf_iff]
  simp [hkinds, Group.condition, Condition.mem_patterns_join_iff, Clause.conditions_eq_map]

/-! ## Finding an entity -/

/-- The compiled query of one domain `d` with the clauses `cs`. -/
def Compiled.alone (d : Domain) (cs : List Clause) : Compiled := ⟨[⟨d, .all cs⟩]⟩

theorem Compiled.isSearchable_alone_iff {d : Domain} {cs : List Clause} :
    (alone d cs).condition.isSearchable = true ↔
      ∀ c ∈ cs, ∀ p ∈ c.condition.patterns, Wildcard.isSearchable p = true := by
  rw [Condition.isSearchable_iff]
  simp only [mem_patterns_iff, alone, List.mem_singleton, exists_eq_left, Group.all]
  constructor
  · intro h c hc p hp
    exact h p ⟨c, hc, hp⟩
  · rintro h p ⟨c, hc, hp⟩
    exact h c hc p hp

/-- A compiled query is accepted iff the index can look for its patterns. -/
theorem IndexRequest.condition_compiled_eq_ok_iff {q : Compiled} {c : Corpus} :
    (compiled q).condition c = .ok q.condition ↔ q.condition.isSearchable = true := by
  change (if q.condition.isSearchable then _ else _) = _ ↔ _
  split
  · simp [*]
  · simp [*]

namespace Index

/-- The index can look for the patterns of the query `q`, and a document of the identifier is
found. -/
def Finds (i : Index) (q : Compiled) (id : String) : Prop :=
  (IndexRequest.compiled q).condition i.published = .ok q.condition ∧
    ∃ d ∈ i.found q.condition, d.id = id

section Storing

variable {i : Index} {e : Entity} {later : List Change} (others : ∀ c ∈ later, c.id ≠ e.id)

include others

/-- Under the identifier of an entity that was entered last there is its document and no other one,
whatever was done under other identifiers `later`. -/
theorem exists_mem_filter_storing_iff {meets : Document → Bool} :
    (∃ d ∈ (i.storing e later).published.filter meets, d.id = e.id) ↔
      meets (.ofEntity e) = true := by
  constructor
  · rintro ⟨d, hd, hid⟩
    obtain ⟨hd, hmeets⟩ := List.mem_filter.mp hd
    rwa [(mem_published_storing others hid).mp hd] at hmeets
  · intro hmeets
    exact ⟨.ofEntity e, List.mem_filter.mpr
      ⟨(mem_published_storing others rfl).mpr rfl, hmeets⟩, rfl⟩

/-- An entity is found by a query iff its patterns can be looked for and its document meets it. -/
theorem finds_storing_iff {q : Compiled} : (i.storing e later).Finds q e.id ↔
    q.condition.isSearchable = true ∧ q.condition.holds (.ofEntity e) = true := by
  rw [Finds, IndexRequest.condition_compiled_eq_ok_iff, found, exists_mem_filter_storing_iff others]

end Storing

/-- Whether an entity is found that was entered last can be computed. -/
instance (i : Index) (e : Entity) (q : Compiled) : Decidable ((i.storing e []).Finds q e.id) :=
  decidable_of_iff _ (finds_storing_iff (List.forall_mem_nil _)).symm

/-- A query of one domain finds an entity iff the domain covers its kind and its document passes all
clauses, whose patterns must be such that the index can look for them. -/
theorem finds_alone_iff {i : Index} {e : Entity} {later : List Change}
    (others : ∀ c ∈ later, c.id ≠ e.id)
    {d : Domain} {cs : List Clause} : (i.storing e later).Finds (.alone d cs) e.id ↔
      (∀ c ∈ cs, ∀ p ∈ c.condition.patterns, Wildcard.isSearchable p = true) ∧
      d.Covers e.kind ∧ Description.Pass Phrase.occurs e cs := by
  have hholds : (Compiled.alone d cs).condition.holds (.ofEntity e) = true ↔
      d.Covers e.kind ∧ Description.Pass Phrase.occurs e cs := by
    rw [Condition.holds, Compiled.holdsBy_iff]
    simp only [Compiled.alone, List.mem_singleton, exists_eq_left, DomainQuery.holdsBy_iff,
      Description.mem_kinds_iff, Group.holdsBy_all, Description.Pass]
  rw [finds_storing_iff others, Compiled.isSearchable_alone_iff, hholds]

end Index

/-! ## What a description finds -/

namespace Description

/-- For an entity that the index keeps, and a schema that has no property of the name of a field of
the index:
* the compiled description finds the entity iff the index can look for all its patterns and the
  description asks for the entity (`Admits`);
* so a page with as many hits as documents are found has a hit of the entity iff the description
  asks for it;
* if the index cannot look for one of the patterns, every search for the compiled description is
  refused. -/
theorem compile_finds_iff (q : Description) (schema : Schema) (scope : Scope) (e : Entity)
    (routed : ∀ f ∈ schema.fields, Field.ofClause? f.name = none)
    (i : Index) (later : List Change) (others : ∀ c ∈ later, c.id ≠ e.id) :
    ((i.storing e later).Finds (q.compile schema scope) e.id ↔
      (q.compile schema scope).condition.isSearchable = true ∧ q.Admits schema scope e) ∧
    (∀ limit page,
      (i.storing e later).search (.compiled (q.compile schema scope)) 0 limit = .ok page →
      page.total ≤ limit → ((∃ hit ∈ page.hits, hit.id = e.id) ↔ q.Admits schema scope e)) ∧
    ((q.compile schema scope).condition.isSearchable = false → ∀ offset limit,
      (i.storing e later).search (.compiled (q.compile schema scope)) offset limit =
        .error (.index "a pattern has too many states")) := by
  have hfinds : (i.storing e later).Finds (q.compile schema scope) e.id ↔
      (q.compile schema scope).condition.isSearchable = true ∧ q.Admits schema scope e := by
    rw [Index.finds_storing_iff others, Condition.holds, holdsBy_compile_iff routed]
  refine ⟨hfinds, fun limit page hpage hall => ?_, Index.search_of_not_searchable⟩
  rw [Index.exists_hit_iff_of_search hpage hall, Index.found,
    Index.exists_mem_filter_storing_iff others, Condition.holds, holdsBy_compile_iff routed]

/-- The `redReport` is found, hence asked for, also when another entity was entered behind it. -/
theorem compile_finds_redReport :
    redReports.Admits colorSchema .empty redReport ∧
    ((Index.empty 100).storing redReport [.add (.ofEntity { redReport with id := "8" })]).Finds
      (redReports.compile colorSchema .empty) "7" := by
  obtain ⟨hfinds, _, _⟩ := compile_finds_iff redReports colorSchema .empty redReport (by decide)
    (Index.empty 100) [.add (.ofEntity { redReport with id := "8" })] (by decide +kernel)
  have hfound :
      ((Index.empty 100).storing redReport [.add (.ofEntity { redReport with id := "8" })]).Finds
      (redReports.compile colorSchema .empty) "7" :=
    ⟨IndexRequest.condition_compiled_eq_ok_iff.mpr (by decide +kernel), by decide +kernel⟩
  exact ⟨(hfinds.mp hfound).2, hfound⟩

/-- A report of a name with an `a` seven characters before its end. -/
def refusedReport : Entity := { redReport with path := "/okm:root/xabcdefg" }

/-- A search for the names with an `a` seven characters before their end asks for the
`refusedReport`.  The index keeps the report, but it refuses the search. -/
theorem compile_refused_report :
    (byName "*a??????").Admits colorSchema .empty refusedReport ∧
    ¬ ((Index.empty 100).storing refusedReport []).Finds
      ((byName "*a??????").compile colorSchema .empty)
      refusedReport.id ∧
    ∀ offset limit, ((Index.empty 100).storing refusedReport []).search
        (.compiled ((byName "*a??????").compile colorSchema .empty)) offset limit =
      .error (.index "a pattern has too many states") := by
  have hpatterns : ((byName "*a??????").compile colorSchema .empty).condition.patterns =
      [Wildcard.pattern "*a??????"] := by decide +kernel
  have hsearchable :
      ((byName "*a??????").compile colorSchema .empty).condition.isSearchable = false := by
    rw [← Bool.not_eq_true, Condition.isSearchable_iff, hpatterns, List.forall_mem_singleton,
      Wildcard.isSearchable_recent]
    exact Bool.false_ne_true
  have hholds :
      ((byName "*a??????").compile colorSchema .empty).condition.holds
      (.ofEntity refusedReport) = true := by
    decide +kernel
  refine ⟨(holdsBy_compile_iff (by decide)).mp hholds, fun hfinds => ?_,
    Index.search_of_not_searchable hsearchable⟩
  rw [Index.finds_storing_iff (List.forall_mem_nil _), hsearchable] at hfinds
  exact Bool.false_ne_true hfinds.1

end Description

end DocSearch
