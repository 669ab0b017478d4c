import DocSearch.Index.Store
import DocSearch.Proofs.Data.Results
import DocSearch.Proofs.Index.Meaning

/-!
# The ranking of a compiled query

A page is a part of the ranking, but its total counts the documents found, and the two are computed
apart: what is ranked must meet the condition with phrases counted, what is found with phrases
occurring.  A compiled query asks for no phrases (`Compiled.isPhraseless`, by induction on its
clauses), so it ranks the documents that it finds (`Compiled.ranks_eq_holds`), each of them once
(`Index.ranking_perm`).

From this follows what a search for it answers:

* it is refused if the index cannot look for one of its patterns (`Index.search_of_not_searchable`);
* otherwise a page is answered iff the documents between its offset and its end in the ranking can
  be shown, and then these are its hits (`Index.search_eq_ok_iff`);
* a document without a window for its excerpt stops the program (`Index.search_eq_panic_iff`), which
  is the only other outcome (`Index.show?_cases`);
* if every document found has an excerpt, every page is answered (`Index.search_compiled`).
-/

namespace DocSearch

/-! ## Conditions without phrases -/

namespace Condition

/-- Whether a document meets the condition `c` does not depend on the phrases that its texts
have. -/
def IsPhraseless (c : Condition) : Prop := ∀ has has' d, c.holdsBy has d = c.holdsBy has' d

/-- A boolean condition asks for phrases only where its parts do. -/
theorem isPhraseless_parts {ps : List (Occur × Condition)} (h : ∀ p ∈ ps, p.2.IsPhraseless) :
    (parts ps).IsPhraseless := by
  intro has has' d
  rw [holdsBy, holdsBy, holdsEachBy_eq_map, holdsEachBy_eq_map]
  exact congrArg _ (List.map_congr_left fun p hp => congrArg _ (h p hp has has' d))

/-- A conjunction asks for phrases only where its members do. -/
theorem isPhraseless_allOf {cs : List Condition} (h : ∀ c ∈ cs, c.IsPhraseless) :
    (allOf cs).IsPhraseless :=
  isPhraseless_parts (List.forall_mem_map.mpr h)

/-- A disjunction asks for phrases only where its members do. -/
theorem isPhraseless_anyOf {cs : List Condition} (h : ∀ c ∈ cs, c.IsPhraseless) :
    (anyOf cs).IsPhraseless :=
  isPhraseless_parts (List.forall_mem_map.mpr h)

/-- Joined conditions ask for phrases only where they do. -/
theorem isPhraseless_join {cs : List Condition} (h : ∀ c ∈ cs, c.IsPhraseless) (k : Combinator) :
    (k.join cs).IsPhraseless := by
  cases k with
  | any => exact isPhraseless_anyOf h
  | all =>
    cases cs with
    | nil => exact fun _ _ _ => rfl
    | cons c cs => exact isPhraseless_allOf h

end Condition

mutual

/-- No clause asks for a phrase: what is looked for in words is a pattern each. -/
theorem Clause.isPhraseless : ∀ c : Clause, c.condition.IsPhraseless
  | .exact field value => by
    rw [condition]
    cases Target.of field <;> exact fun _ _ _ => rfl
  | .wildcard field pattern => fun _ _ _ => rfl
  | .range field first last => fun _ _ _ => rfl
  | .group combinator clauses => Condition.isPhraseless_join
    (Clause.forall_isPhraseless clauses) combinator

/-- None of some clauses asks for a phrase, see `Clause.isPhraseless`. -/
theorem Clause.forall_isPhraseless : ∀ cs : List Clause, ∀ c ∈ Clause.conditions cs, c.IsPhraseless
  | [], _, hc => by cases hc
  | c :: cs, x, hx => by
    rcases List.mem_cons.mp hx with rfl | hx
    · exact c.isPhraseless
    · exact Clause.forall_isPhraseless cs x hx

end

/-- A compiled query asks for no phrase. -/
theorem Compiled.isPhraseless (q : Compiled) : q.condition.IsPhraseless := by
  refine Condition.isPhraseless_anyOf (List.forall_mem_map.mpr fun d _ => ?_)
  have hkinds : d.domain.condition.IsPhraseless :=
    Condition.isPhraseless_anyOf (List.forall_mem_map.mpr fun _ _ _ _ _ => rfl)
  have hgroup : d.group.condition.IsPhraseless :=
    Condition.isPhraseless_join (Clause.forall_isPhraseless d.group.clauses) d.group.combinator
  refine Condition.isPhraseless_allOf fun c hc => ?_
  rcases List.mem_cons.mp hc with rfl | hc
  · exact hkinds
  · rw [List.mem_singleton.mp hc]
    exact hgroup

/-- A compiled query ranks the documents that meet it. -/
theorem Compiled.ranks_eq_holds (q : Compiled) : q.condition.ranks = q.condition.holds :=
  funext fun d => q.isPhraseless _ _ d

/-! ## Pages of the ranking -/

namespace Index

variable {i : Index} {q : Compiled}

/-- Up to its order, the ranking is of the documents found. -/
theorem ranking_perm (i : Index) (q : Compiled) :
    ((i.ranking q.condition).map (·.1)).Perm (i.found q.condition) := by
  rw [ranking, q.ranks_eq_holds]
  refine ((List.mergeSort_perm _ _).map _).trans ?_
  rw [List.map_map]
  exact .of_eq (List.map_id' _)

/-- As many documents are ranked as found, so that pages end with the total. -/
theorem length_ranking (i : Index) (q : Compiled) :
    (i.ranking q.condition).length = (i.found q.condition).length := by
  rw [← (i.ranking_perm q).length_eq, List.length_map]

/-- A query with a pattern that the index cannot look for is refused, whatever page of it is asked
for. -/
theorem search_of_not_searchable (h : q.condition.isSearchable = false) (offset limit : Nat) :
    i.search (.compiled q) offset limit = .error (.index "a pattern has too many states") := by
  have hcondition : (IndexRequest.compiled q).condition i.published =
      .error (.index "a pattern has too many states") := if_neg (by simp [h])
  rw [search, hcondition]
  rfl

/-- A page is the part of the ranking from `offset` on, each document of which is shown by `show?`.
The ranking has no more documents than are found, so that it ends where the total does. -/
theorem search_of_searchable (h : q.condition.isSearchable = true) (offset limit : Nat) :
    i.search (.compiled q) offset limit =
      ((((i.ranking q.condition).drop offset).take limit).mapM fun rank =>
        i.show? (Excerpt.termsOfCompiled q) rank.1 rank.2).map
          (⟨(i.found q.condition).length, ·⟩) := by
  have hcondition : (IndexRequest.compiled q).condition i.published = .ok q.condition := if_pos h
  have hlimit :
    ((i.ranking q.condition).drop offset).take (min limit ((i.found q.condition).length - offset)) =
      ((i.ranking q.condition).drop offset).take limit := by
    rw [List.take_eq_take_iff, List.length_drop, length_ranking]
    omega
  rw [search, hcondition]
  simp only [bind, Except.bind, hlimit, IndexRequest.shownTerms]
  cases (((i.ranking q.condition).drop offset).take limit).mapM fun rank =>
    i.show? (Excerpt.termsOfCompiled q) rank.1 rank.2 <;> rfl

/-- A page is answered iff the index can look for the patterns and the documents at its place in the
ranking can be shown: these are its `hits`, and its `total` is the number of documents found. -/
theorem search_eq_ok_iff {offset limit : Nat} {page : IndexPage} :
    i.search (.compiled q) offset limit = .ok page ↔
    q.condition.isSearchable = true ∧ page.total = (i.found q.condition).length ∧
      List.Forall₂ (fun rank hit => i.show? (Excerpt.termsOfCompiled q) rank.1 rank.2 = .ok hit)
        (((i.ranking q.condition).drop offset).take limit) page.hits := by
  cases hsearchable : q.condition.isSearchable with
  | false =>
    rw [search_of_not_searchable hsearchable]
    exact iff_of_false (fun h => nomatch h) fun h => nomatch h.1
  | true =>
    rw [search_of_searchable hsearchable, map_eq_ok_iff, and_iff_right rfl]
    simp only [mapM_eq_ok_iff]
    constructor
    · rintro ⟨hits, hshown, rfl⟩
      exact ⟨rfl, hshown⟩
    · rintro ⟨htotal, hshown⟩
      exact ⟨page.hits, hshown, by rw [← htotal]⟩

/-- A `rank` as it is shown; if there is no window for its excerpt, without one. -/
def hitAt (i : Index) (q : Compiled) (rank : Document × Score) : IndexHit :=
  ⟨rank.1.id, rank.2,
    (Excerpt.create? rank.1.body (Excerpt.termsOfCompiled q) i.excerptLength).join⟩

/-- A document is shown, or its excerpt has no window and the program stops. -/
theorem show?_cases (i : Index) (terms : List String) (d : Document) (score : Score) :
    (Excerpt.create? d.body terms i.excerptLength = none ∧ i.show? terms d score = .error .panic) ∨
      ∃ excerpt, Excerpt.create? d.body terms i.excerptLength = some excerpt ∧
        i.show? terms d score = .ok ⟨d.id, score, excerpt⟩ := by
  rw [show?]
  cases Excerpt.create? d.body terms i.excerptLength with
  | none => exact .inl ⟨rfl, rfl⟩
  | some excerpt => exact .inr ⟨excerpt, rfl, rfl⟩

/-- A search for the compiled query `q` stops the program iff the index can look for its patterns
and one of the documents of the page has no window for its excerpt. -/
theorem search_eq_panic_iff {offset limit : Nat} :
    i.search (.compiled q) offset limit = .error .panic ↔
    q.condition.isSearchable = true ∧ ∃ rank ∈ ((i.ranking q.condition).drop offset).take limit,
      Excerpt.create? rank.1.body (Excerpt.termsOfCompiled q) i.excerptLength = none := by
  cases hsearchable : q.condition.isSearchable with
  | false =>
    rw [search_of_not_searchable hsearchable]
    exact iff_of_false (fun h => nomatch h) fun h => nomatch h.1
  | true =>
    rw [search_of_searchable hsearchable, and_iff_right rfl]
    constructor
    · intro h
      by_contra hall
      have hshown : ∀ rank ∈ ((i.ranking q.condition).drop offset).take limit,
          i.show? (Excerpt.termsOfCompiled q) rank.1 rank.2 = .ok (i.hitAt q rank) := by
        intro rank hrank
        rcases i.show?_cases (Excerpt.termsOfCompiled q) rank.1
          rank.2 with ⟨hnone, _⟩ | ⟨excerpt, hsome, hshow⟩
        · exact absurd ⟨rank, hrank, hnone⟩ hall
        · rw [hshow, hitAt, hsome]
          rfl
      rw [mapM_eq_ok hshown] at h
      cases h
    · rintro ⟨rank, hrank, hnone⟩
      rw [mapM_eq_error]
      · rfl
      · intro rank _
        rcases i.show?_cases (Excerpt.termsOfCompiled q) rank.1
          rank.2 with ⟨_, hshow⟩ | ⟨_, _, hshow⟩
        · exact .inl hshow
        · exact .inr ⟨_, hshow⟩
      · refine ⟨rank, hrank, ?_⟩
        rw [show?, hnone]

/-- A document is shown under its identifier. -/
theorem id_of_show? {terms : List String} {d : Document} {score : Score} {hit : IndexHit}
    (h : i.show? terms d score = .ok hit) : hit.id = d.id := by
  rcases i.show?_cases terms d score with ⟨_, hshow⟩ | ⟨_, _, hshow⟩
  · rw [hshow] at h
    cases h
  · rw [hshow] at h
    cases h
    rfl

/-- If every document found has an excerpt, the page at `offset` is what the ranking has there. -/
theorem search_compiled (hsearchable : q.condition.isSearchable = true)
    (hexcerpts : ∀ d ∈ i.found q.condition,
      (Excerpt.create? d.body (Excerpt.termsOfCompiled q) i.excerptLength).isSome = true)
        (offset limit : Nat) :
    i.search (.compiled q) offset limit = .ok ⟨(i.found q.condition).length,
      (((i.ranking q.condition).drop offset).take limit).map (i.hitAt q)⟩ := by
  refine search_eq_ok_iff.mpr ⟨hsearchable, rfl,
    List.forall₂_map_right_iff.mpr (List.forall₂_same.mpr ?_)⟩
  intro rank hrank
  have hmem : rank.1 ∈ (i.ranking q.condition).map (·.1) :=
    List.mem_map_of_mem (List.mem_of_mem_drop (List.mem_of_mem_take hrank))
  have hsome := hexcerpts rank.1 ((i.ranking_perm q).mem_iff.mp hmem)
  obtain ⟨excerpt, hexcerpt⟩ := Option.isSome_iff_exists.mp hsome
  rw [show?, hitAt, hexcerpt]
  rfl

/-- A page with as many hits as documents are found has a hit of every one of them, and no other
hits. -/
theorem exists_hit_iff_of_search {limit : Nat} {page : IndexPage}
    (h : i.search (.compiled q) 0 limit = .ok page)
    (hall : page.total ≤ limit) {id : String} :
    (∃ hit ∈ page.hits, hit.id = id) ↔ ∃ d ∈ i.found q.condition, d.id = id := by
  obtain ⟨_, htotal, hshown⟩ := search_eq_ok_iff.mp h
  rw [List.drop_zero, List.take_of_length_le (by rwa [length_ranking, ← htotal])] at hshown
  have hids : List.Forall₂ (· = ·) ((i.ranking q.condition).map (·.1.id)) (page.hits.map (·.id)) :=
    List.forall₂_map_left_iff.mpr (List.forall₂_map_right_iff.mpr
      (hshown.imp fun _ _ hhit => (id_of_show? hhit).symm))
  rw [List.forall₂_eq_eq_eq] at hids
  calc (∃ hit ∈ page.hits, hit.id = id)
    _ ↔ id ∈ (i.ranking q.condition).map (·.1.id) := by rw [hids, List.mem_map]
    _ ↔ id ∈ ((i.ranking q.condition).map (·.1)).map (·.id) := by rw [List.map_map]; rfl
    _ ↔ id ∈ (i.found q.condition).map (·.id) := ((i.ranking_perm q).map _).mem_iff
    _ ↔ ∃ d ∈ i.found q.condition, d.id = id := List.mem_map

end Index

end DocSearch
