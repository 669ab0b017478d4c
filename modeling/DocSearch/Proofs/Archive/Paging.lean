import DocSearch.Archive.Find
import DocSearch.Proofs.Index.Excerpts
import DocSearch.Proofs.Index.Publishing
import DocSearch.Proofs.Index.Ranking
import DocSearch.Proofs.Property.Reloading
import DocSearch.Proofs.Query.Finding
import DocSearch.Proofs.Query.ManyStates
import DocSearch.Proofs.Query.NameSearch
import DocSearch.Proofs.Search.Answers
import DocSearch.Proofs.Text.LowerCase
import DocSearch.Proofs.Text.Runs

/-!
# Pages of a search

What a user sees of a search is a page at a time, and each page is a search of its own.  Here the
pages of one query are put together again.

* A query that can be answered at all (`Archive.Answers`) compiles, can be looked for, and has an
  excerpt and an entity for every document found.  Each of its pages is then answered with what the
  user may read of the ranks on it (`Archive.Answers.findPage_eq`).
* A page leaves the archive so that the query can be answered again (`Archive.Answers.findPage`):
  this is the step, and `Archive.Answers.findPages_eq` the run over any list of offsets.
* Pages of one size that follow one another show the whole ranking (`Archive.Answers.exists_pages`),
  because the parts of a list from the multiples of a length on make up the list
  (`flatMap_drop_take`).
* The ranking has the document of every entity that the query finds once
  (`Index.ranking_perm_matching`), for an index after whatever operations; so the pages show each of
  those that the user may read once (`Archive.findPage_pages`).

A query with a pattern of too many states cannot be answered on any page
(`Paging.findPage_refused`).
-/

namespace DocSearch

/-! ## Pages one after the other -/

/-- A size of a page within `maxPageSize` is kept. -/
theorem SearchSettings.pageSize_of_le {s : SearchSettings} {n : UInt64} (h : n ≤ s.maxPageSize) :
    s.pageSize (some n) = n := if_pos h

/-- The parts of the list `l` that begin at the multiples of `length` make up its beginning. -/
theorem flatMap_drop_take {α : Type} (l : List α) (length : Nat) :
    ∀ n, ((List.range n).flatMap fun k => (l.drop (k * length)).take length) = l.take (n * length)
  | 0 => by simp
  | n + 1 => by
    rw [List.range_succ, List.flatMap_append, flatMap_drop_take l length n, List.flatMap_singleton,
      Nat.succ_mul, List.take_add]

namespace Archive

/-- What `user` is shown of some `ranks` for the query `c`. -/
def shown (s : Archive) (c : Compiled) (user : String)
    (ranks : List (Document × Score)) : List Hit :=
  ranks.filterMap fun rank => (s.index.hitAt c rank).shownTo? s.repository user

/-- What the query `q` answers for pages of one size at some offsets, asked for one after the other:
each leaves an archive to the next. -/
def findPages (s : Archive) (q : Description) (limit : UInt64) (user : String) :
    List UInt64 → List (Except Failure ResultPage)
  | [] => []
  | o :: os =>
    (s.findPage q o (some limit) user).1 ::
      findPages (s.findPage q o (some limit) user).2 q limit user os

/-- The query `q` can be answered: it compiles to `c`, the index can look for its patterns, and
every document found has an excerpt and an entity. -/
structure Answers (s : Archive) (q : Description) (c : Compiled) : Prop where
  compiles : (s.compile q).1 = .ok c
  searchable : c.condition.isSearchable = true
  excerpts : ∀ d ∈ s.index.found c.condition,
    (Excerpt.create? d.body (Excerpt.termsOfCompiled c) s.index.excerptLength).isSome = true
  exist : ∀ d ∈ s.index.found c.condition, ∃ n, s.repository.nodes.get? d.id = some n

variable {s : Archive} {q : Description} {c : Compiled}

/-- The compiled form of `q`, read off the definition of `Archive.compile`; the loader that it
leaves does not count. -/
theorem compile_fst (s : Archive) (q : Description) : (s.compile q).1 = (do
    let loaded ← (s.loader.resolve s.schemaSource).1
    let scope ← Scope.resolve s.repository ((q.path.bind Text.nonBlank?).getD "")
    pure (q.compile loaded.schema scope)) := rfl

/-- A query that compiles compiles to the same again, whatever `audit` has been recorded
meanwhile. -/
theorem compile_compile (h : (s.compile q).1 = .ok c) (audit : List AuditRecord) :
    (({ (s.compile q).2 with audit } : Archive).compile q).1 = .ok c := by
  rw [compile_fst] at h
  cases hresolve : (s.loader.resolve s.schemaSource).1 with
  | error e =>
    rw [hresolve] at h
    cases h
  | ok loaded =>
    -- The first time left the schema with the loader, so the second time finds the same.
    have hagain : ((s.loader.resolve s.schemaSource).2.resolve s.schemaSource).1 =
        (s.loader.resolve s.schemaSource).1 := by
      rw [Loader.resolve_resolve hresolve, hresolve]
    rw [compile_fst]
    change (do
      let loaded ← ((s.loader.resolve s.schemaSource).2.resolve s.schemaSource).1
      let scope ← Scope.resolve s.repository ((q.path.bind Text.nonBlank?).getD "")
      pure (q.compile loaded.schema scope)) = _
    rw [hagain]
    exact h

/-- A page of a query that compiles is what the user is shown for the answer of the index. -/
theorem findPage_fst (h : (s.compile q).1 = .ok c) (offset : UInt64) (limit : Option UInt64)
    (user : String) :
    (s.findPage q offset limit user).1 = ResultPage.ofAnswer s.repository user
      (s.index.search (.compiled c) offset.toNat (s.settings.pageSize limit).toNat) := by
  have hsame : (s.compile q).2 = { s with loader := (s.compile q).2.loader } := rfl
  unfold findPage
  cases hcompile : s.compile q with
  | mk compiled t =>
    rw [hcompile] at h hsame
    cases h
    have ht : t = { s with loader := t.loader } := hsame
    rw [ht]
    rfl

/-- A search leaves the archive as compiling does, but for the `audit`. -/
theorem exists_findPage_eq (h : (s.compile q).1 = .ok c) (offset : UInt64) (limit : Option UInt64)
    (user : String) :
    ∃ audit, (s.findPage q offset limit user).2 = { (s.compile q).2 with audit } := by
  unfold findPage
  cases hcompile : s.compile q with
  | mk compiled t =>
    rw [hcompile] at h
    cases h
    exact ⟨_, rfl⟩

namespace Answers

/-- A query that can be answered can be answered again after a page of it. -/
theorem findPage (h : s.Answers q c) (offset : UInt64) (limit : Option UInt64) (user : String) :
    (s.findPage q offset limit user).2.Answers q c := by
  obtain ⟨audit, hafter⟩ := exists_findPage_eq h.compiles offset limit user
  rw [hafter]
  exact ⟨compile_compile h.compiles audit, h.searchable, h.excerpts, h.exist⟩

/-- A page shows what the user may read of its ranks, and counts all that is found. -/
theorem findPage_eq (h : s.Answers q c) (offset : UInt64) (limit : Option UInt64) (user : String) :
    (s.findPage q offset limit user).1 = .ok ⟨(s.index.found c.condition).length,
      s.shown c user (((s.index.ranking c.condition).drop offset.toNat).take
        (s.settings.pageSize limit).toNat)⟩ := by
  have hsearch :=
    Index.search_compiled h.searchable h.excerpts offset.toNat (s.settings.pageSize limit).toNat
  have hexist : ∀ hit ∈ (((s.index.ranking c.condition).drop offset.toNat).take
      (s.settings.pageSize limit).toNat).map (s.index.hitAt c), ∃ n,
        s.repository.nodes.get? hit.id = some n := by
    intro hit hhit
    obtain ⟨rank, hrank, rfl⟩ := List.mem_map.mp hhit
    have hmem : rank.1 ∈ (s.index.ranking c.condition).map (·.1) :=
      List.mem_map_of_mem (List.mem_of_mem_drop (List.mem_of_mem_take hrank))
    exact h.exist rank.1 ((s.index.ranking_perm c).mem_iff.mp hmem)
  rw [findPage_fst h.compiles, hsearch, ResultPage.ofAnswer]
  dsimp only
  rw [IndexHit.readable_eq hexist, List.filterMap_map]
  rfl

/-- Pages asked for one after the other are those of `findPage_eq`, by induction on the
`offsets`. -/
theorem findPages_eq (limit : UInt64) (user : String) (offsets : List UInt64) :
    ∀ {s : Archive}, s.Answers q c → s.findPages q limit user offsets = offsets.map fun o =>
      .ok ⟨(s.index.found c.condition).length, s.shown c user
        (((s.index.ranking c.condition).drop o.toNat).take
          (s.settings.pageSize (some limit)).toNat)⟩ := by
  induction offsets with
  | nil => exact fun _ => rfl
  | cons o os ih =>
    intro s h
    have hrest := ih (h.findPage o (some limit) user)
    -- A page leaves the index, the nodes and the settings as they are, so the rest is stated of
    -- them.
    obtain ⟨audit, hafter⟩ := exists_findPage_eq h.compiles o (some limit) user
    rw [findPages, hrest, List.map_cons, h.findPage_eq, hafter]
    rfl

end Answers

/-! ## What is shown -/

variable {user : String} {ranks : List (Document × Score)}

/-- The hits that are shown are of the documents in `ranks`, in their order. -/
theorem sublist_ids_shown (built : s.repository.Built) (ranks : List (Document × Score)) :
    ((s.shown c user ranks).map (·.entity.id)).Sublist (ranks.map (·.1.id)) := by
  induction ranks with
  | nil => exact .slnil
  | cons rank ranks ih =>
    rw [List.map_cons]
    cases hshown : (s.index.hitAt c rank).shownTo? s.repository user with
    | none =>
      have hrest : s.shown c user (rank :: ranks) = s.shown c user ranks :=
        List.filterMap_cons_none hshown
      rw [hrest]
      exact ih.cons _
    | some hit =>
      have hid := ((IndexHit.exists_shownTo?_iff built).mp ⟨hit, hshown, rfl⟩).1
      have hrest : s.shown c user (rank :: ranks) = hit :: s.shown c user ranks :=
        List.filterMap_cons_some hshown
      rw [hrest, List.map_cons, ← hid]
      exact ih.cons_cons _

/-- They are of all documents in `ranks` whose entities the user may read. -/
theorem mem_ids_shown_iff (built : s.repository.Built) {id : String} :
    id ∈ (s.shown c user ranks).map (·.entity.id) ↔
      id ∈ ranks.map (·.1.id) ∧ ∃ n, s.repository.nodes.get? id = some n ∧
      n.isReadable user = true := by
  simp only [shown, List.mem_map, List.mem_filterMap]
  constructor
  · rintro ⟨hit, ⟨rank, hrank, hhit⟩, hid⟩
    obtain ⟨hsame, hreads⟩ := (IndexHit.exists_shownTo?_iff built).mp ⟨hit, hhit, hid⟩
    exact ⟨⟨rank, hrank, hsame⟩, hreads⟩
  · rintro ⟨⟨rank, hrank, hsame⟩, hreads⟩
    obtain ⟨hit, hhit, hid⟩ :=
      (IndexHit.exists_shownTo?_iff (h := s.index.hitAt c rank) built).mpr ⟨hsame, hreads⟩
    exact ⟨hit, ⟨rank, hrank, hhit⟩, hid⟩

/-- The parts of the ranking that begin at the multiples of `length` show all of it, if there are
enough of them. -/
theorem flatMap_shown {n length : Nat} (h : ranks.length ≤ n * length) :
    ((List.range n).flatMap fun k => s.shown c user ((ranks.drop (k * length)).take length)) =
      s.shown c user ranks := by
  have hall : ((List.range n).flatMap fun k => (ranks.drop (k * length)).take length) = ranks := by
    rw [flatMap_drop_take, List.take_of_length_le h]
  have hshown :
      s.shown c user ((List.range n).flatMap fun k => (ranks.drop (k * length)).take length) =
        (List.range n).flatMap fun k => s.shown c user ((ranks.drop (k * length)).take length) := by
    rw [shown, List.filterMap_flatMap]
    rfl
  rw [← hshown, hall]

/-- The offsets of the first `n` pages of the size `limit`. -/
def offsets (limit : UInt64) (n : Nat) : List UInt64 :=
  (List.range n).map fun k => .ofNat (k * limit.toNat)

/-- Pages of one size, asked for one after the other until there are no more, show the whole
ranking. -/
theorem Answers.exists_pages (h : s.Answers q c) (user : String) {limit : UInt64}
    (hlimit : limit ≤ s.settings.maxPageSize) {n : Nat}
    (hn : (s.index.found c.condition).length ≤ n * limit.toNat)
    (hwords : ∀ k < n, k * limit.toNat < UInt64.size) :
    ∃ pages : List ResultPage, s.findPages q limit user (offsets limit n) = pages.map .ok ∧
      pages.flatMap (·.results) = s.shown c user (s.index.ranking c.condition) := by
  have hsize := SearchSettings.pageSize_of_le hlimit
  have hranks : (s.index.ranking c.condition).length ≤ n * limit.toNat := by
    rw [Index.length_ranking]
    exact hn
  refine ⟨(List.range n).map fun k => ⟨(s.index.found c.condition).length,
    s.shown c user (((s.index.ranking c.condition).drop (k * limit.toNat)).take limit.toNat)⟩, ?_,
      ?_⟩
  · rw [findPages_eq limit user _ h, offsets, List.map_map, List.map_map, hsize]
    refine List.map_congr_left fun k hk => ?_
    have hoffset : (UInt64.ofNat (k * limit.toNat)).toNat = k * limit.toNat :=
      UInt64.toNat_ofNat_of_lt' (hwords k (List.mem_range.mp hk))
    simp only [Function.comp_apply, hoffset]
  · rw [List.flatMap_map]
    exact flatMap_shown hranks

end Archive

/-! ## All pages of a query -/

/-- The published entities that the compiled query `c` finds. -/
def EntityStore.matching (m : EntityStore) (c : Compiled) : List Entity :=
  m.published.values.filter fun e => c.condition.holds (.ofEntity e)

/-- The entities of `EntityStore.matching` have different identifiers. -/
theorem EntityStore.nodup_ids_matching (ops : List IndexOperation) (c : Compiled) :
    (((run ops).matching c).map (·.id)).Nodup :=
  (Index.mirrors_run 0 ops).published.nodup_values.sublist (List.filter_sublist.map _)

namespace Index

variable (length : Nat) (ops : List IndexOperation) (c : Compiled)

/-- The documents that an index finds after `ops` are those of the entities found. -/
theorem found_perm_matching :
    ((run length ops).found c.condition).Perm
    (((EntityStore.run ops).matching c).map .ofEntity) := by
  have hpublished := (mirrors_run length ops).published.perm.filter c.condition.holds
  rw [List.filter_map] at hpublished
  exact hpublished

/-- As many documents are found as entities, so the total of a page counts these. -/
theorem length_found_run :
    ((run length ops).found c.condition).length = ((EntityStore.run ops).matching c).length := by
  rw [(found_perm_matching length ops c).length_eq, List.length_map]

/-- The ranking has the document of every entity that the query finds once. -/
theorem ranking_perm_matching : (((run length ops).ranking c.condition).map (·.1)).Perm
    (((EntityStore.run ops).matching c).map .ofEntity) :=
  ((run length ops).ranking_perm c).trans (found_perm_matching length ops c)

/-- The ranking has the identifier of every entity that the query finds once. -/
theorem ids_ranking_perm : (((run length ops).ranking c.condition).map (·.1.id)).Perm
    (((EntityStore.run ops).matching c).map (·.id)) := by
  have hmapped := (ranking_perm_matching length ops c).map (·.id)
  rwa [List.map_map, List.map_map] at hmapped

end Index

namespace Archive

variable {s : Archive} {q : Description} {c : Compiled} {length : Nat} {ops : List IndexOperation}

/-- For an index after `ops` it is enough for `Answers` that the published entities exist and those
found have excerpts. -/
theorem answers_of_run (hindex : s.index = .run length ops)
    (hexist : ∀ id e, (EntityStore.run ops).published.get? id = some e →
      ∃ n, s.repository.nodes.get? id = some n)
    (hcompiles : (s.compile q).1 = .ok c) (hsearchable : c.condition.isSearchable = true)
    (hexcerpts : ∀ e ∈ (EntityStore.run ops).matching c,
      (Excerpt.create? (Document.ofEntity e).body (Excerpt.termsOfCompiled c)
        s.index.excerptLength).isSome = true) :
    s.Answers q c := by
  have hfound : ∀ d ∈ s.index.found c.condition, ∃ e ∈ (EntityStore.run ops).matching c,
      d = .ofEntity e := by
    intro d hd
    rw [hindex, (Index.found_perm_matching length ops c).mem_iff] at hd
    obtain ⟨e, he, rfl⟩ := List.mem_map.mp hd
    exact ⟨e, he, rfl⟩
  refine ⟨hcompiles, hsearchable, fun d hd => ?_, fun d hd => ?_⟩
  · obtain ⟨e, he, rfl⟩ := hfound d hd
    exact hexcerpts e he
  · obtain ⟨e, he, rfl⟩ := hfound d hd
    have hpublished := (Index.mirrors_run length ops).published
    exact hexist e.id e (hpublished.mem_values_iff.mp (List.mem_of_mem_filter he))

/-- For an index after any operations `ops`, all of whose published entities are in the repository,
and a query `q` that compiles to `c`, whose patterns the index can look for and for all of whose
matches there are excerpts:
* the ranking has the document of every entity that the query finds once;
* a page answers, at any offset, how many these are, and what `user` may read of its ranks; that is
  nothing from their number on, and for a size of `0`;
* pages of one size that are asked for one after the other, until there are no more, show in the
  order of the ranking every entity found that the user may read, and show it once. -/
theorem findPage_pages (built : s.repository.Built) (hindex : s.index = .run length ops)
    (hexist : ∀ id e, (EntityStore.run ops).published.get? id = some e →
      ∃ n, s.repository.nodes.get? id = some n)
    (hcompiles : (s.compile q).1 = .ok c) (hsearchable : c.condition.isSearchable = true)
    (hexcerpts : ∀ e ∈ (EntityStore.run ops).matching c,
      (Excerpt.create? (Document.ofEntity e).body (Excerpt.termsOfCompiled c)
        s.index.excerptLength).isSome = true)
    (user : String) {limit : UInt64} (hlimit : limit ≤ s.settings.maxPageSize) :
    ((s.index.ranking c.condition).map (·.1)).Perm
      (((EntityStore.run ops).matching c).map .ofEntity) ∧
    (∀ o, (s.findPage q o (some limit) user).1 = .ok ⟨((EntityStore.run ops).matching c).length,
      s.shown c user (((s.index.ranking c.condition).drop o.toNat).take limit.toNat)⟩) ∧
    (∀ o, ((EntityStore.run ops).matching c).length ≤ o.toNat →
      (s.findPage q o (some limit) user).1 = .ok ⟨((EntityStore.run ops).matching c).length, []⟩) ∧
    (∀ o, (s.findPage q o (some 0) user).1 = .ok ⟨((EntityStore.run ops).matching c).length, []⟩) ∧
    ∀ n, ((EntityStore.run ops).matching c).length ≤ n * limit.toNat →
      (∀ k < n, k * limit.toNat < UInt64.size) →
      ∃ pages : List ResultPage, s.findPages q limit user (offsets limit n) = pages.map .ok ∧
        pages.flatMap (·.results) = s.shown c user (s.index.ranking c.condition) ∧
        ((pages.flatMap (·.results)).map (·.entity.id)).Nodup ∧
        ∀ id, id ∈ (pages.flatMap (·.results)).map (·.entity.id) ↔
          (∃ e ∈ (EntityStore.run ops).matching c, e.id = id) ∧
          ∃ n, s.repository.nodes.get? id = some n ∧ n.isReadable user = true := by
  have hanswers := answers_of_run hindex hexist hcompiles hsearchable hexcerpts
  have htotal : (s.index.found c.condition).length = ((EntityStore.run ops).matching c).length := by
    rw [hindex, Index.length_found_run]
  have hsize := SearchSettings.pageSize_of_le hlimit
  have hpage :
      ∀ o, (s.findPage q o (some limit) user).1 = .ok ⟨((EntityStore.run ops).matching c).length,
        s.shown c user (((s.index.ranking c.condition).drop o.toNat).take limit.toNat)⟩ := by
    intro o
    rw [hanswers.findPage_eq, htotal, hsize]
  refine ⟨hindex ▸ Index.ranking_perm_matching length ops c, hpage, fun o ho => ?_, fun o => ?_,
    fun n hn hwords => ?_⟩
  -- Behind the last hit nothing is left to be shown.
  · have hnone : (s.index.ranking c.condition).drop o.toNat = [] := by
      refine List.drop_of_length_le ?_
      rwa [Index.length_ranking, htotal]
    rw [hpage, hnone, List.take_nil]
    rfl
  · have hzero : s.settings.pageSize (some 0) = 0 := SearchSettings.pageSize_of_le UInt64.zero_le
    rw [hanswers.findPage_eq, htotal, hzero]
    rfl
  -- One document for each identifier, so no hit is shown twice.
  · obtain ⟨pages, hpages, hall⟩ := hanswers.exists_pages user hlimit (by rwa [htotal]) hwords
    have hids :
        ((s.index.ranking c.condition).map (·.1.id)).Perm
        (((EntityStore.run ops).matching c).map (·.id)) :=
      hindex ▸ Index.ids_ranking_perm length ops c
    refine ⟨pages, hpages, hall, ?_, fun id => ?_⟩
    · rw [hall]
      exact (hids.nodup_iff.mpr (EntityStore.nodup_ids_matching ops c)).sublist
        (sublist_ids_shown built _)
    · rw [hall, mem_ids_shown_iff built, hids.mem_iff, List.mem_map]

end Archive

/-! ### Two reports -/

namespace Paging

/-- A report, and one that only Ann may read. -/
def operations : List IndexOperation :=
  [.enter Description.redReport, .enter { Description.redReport with id := "8" }, .commit]

/-- The node of a report with its `readers`. -/
def report (id : String) (readers : Option (List String)) : Node :=
  ⟨⟨id, .document, "/okm:root/Report.pdf", none, none, .empty⟩, none, readers⟩

/-- An archive of the two reports of `operations`. -/
def reports : Archive :=
  { Archive.empty (.fixed "") {} .live with
    repository := (Repository.empty.insert (report "7" none)).insert (report "8" (some ["ann"]))
    index := .run 150 operations }

/-- The repository of `reports` comes from insertions. -/
theorem built_reports : reports.repository.Built := (Repository.Built.empty.insert _).insert _

/-- Every entity of `operations` has its node in `reports`. -/
theorem exist_reports (id : String) (e : Entity)
    (h : (EntityStore.run operations).published.get? id = some e) :
    ∃ n, reports.repository.nodes.get? id = some n := by
  have hkeys : (EntityStore.run operations).published.keys = reports.repository.nodes.keys := by
    decide
  rw [← SortedMap.mem_keys_iff, ← hkeys, SortedMap.mem_keys_iff]
  exact ⟨e, h⟩

/-- A query without a path compiles in `reports`, with no schema and no folders. -/
theorem compile_reports {q : Description} (h : q.path = none) :
    (reports.compile q).1 = .ok (q.compile .empty .empty) := by
  have hloader : (reports.loader.resolve reports.schemaSource).1 = .ok ⟨"static", .empty, 1⟩ := by
    decide +kernel
  have hscope : Scope.resolve reports.repository "" = .ok .empty := by decide +kernel
  rw [Archive.compile_fst, hloader, h]
  change (do
    let scope ← Scope.resolve reports.repository ""
    pure (q.compile .empty scope)) = _
  rw [hscope]
  rfl

/-- Bob finds two reports, on whichever page, and his two pages of one rank show him the first of
them. -/
theorem findPage_pages_reports :
    (∀ o, ∃ hits, (reports.findPage .documents o (some 1) "bob").1 = .ok ⟨2, hits⟩) ∧
    (∀ o, (reports.findPage .documents o (some 0) "bob").1 = .ok ⟨2, []⟩) ∧
    ∃ pages : List ResultPage, reports.findPages .documents 1 "bob" [0, 1] = pages.map .ok ∧
      ((pages.flatMap (·.results)).map (·.entity.id)).Nodup ∧
      ∀ id, id ∈ (pages.flatMap (·.results)).map (·.entity.id) ↔ id = "7" := by
  have hids :
      ((EntityStore.run operations).matching
        (Description.documents.compile .empty .empty)).map (·.id) =
        ["7", "8"] := by decide +kernel
  have htotal :
      ((EntityStore.run operations).matching
        (Description.documents.compile .empty .empty)).length = 2 := by
    rw [← List.length_map (·.id), hids]
    rfl
  have hbodies :
      ∀ e ∈ (EntityStore.run operations).matching (Description.documents.compile .empty .empty),
        (Document.ofEntity e).body.toList.length +
        reports.index.excerptLength < 18446744073709551616 := by
    decide +kernel
  have hlimit : (1 : UInt64) ≤ reports.settings.maxPageSize := by decide +kernel
  obtain ⟨_, hpage, _, hzero, hpages⟩ := Archive.findPage_pages built_reports rfl exist_reports
    (compile_reports (q := .documents) rfl) (by decide +kernel)
    (fun e he => Excerpt.create?_isSome (hbodies e he) _) "bob" hlimit
  rw [htotal] at hpage hzero hpages
  obtain ⟨pages, hshown, _, hnodup, hmem⟩ := hpages 2 (by decide) (by decide)
  refine ⟨fun o => ⟨_, hpage o⟩, hzero, pages, hshown, hnodup, fun id => ?_⟩
  have hfound :
      (∃ e ∈ (EntityStore.run operations).matching (Description.documents.compile .empty .empty),
        e.id = id) ↔ id ∈ ["7", "8"] := by rw [← hids, List.mem_map]
  rw [hmem, hfound]
  constructor
  · rintro ⟨hid, n, hn, hreads⟩
    rcases List.mem_cons.mp hid with rfl | hid
    · rfl
    -- The other report is one that Bob may not read.
    · obtain rfl := List.mem_singleton.mp hid
      have hhers : reports.repository.nodes.get? "8" = some (report "8" (some ["ann"])) := by
        decide +kernel
      rw [hhers] at hn
      cases hn
      exact absurd hreads (by decide)
  · rintro rfl
    exact ⟨.head _, report "7" none, by decide +kernel, by decide⟩

end Paging

/-! ## Too many question marks -/

/-- A page of a query with a pattern that the index cannot look for is refused, whatever its
`offset` and `limit`. -/
theorem Archive.findPage_of_not_searchable {s : Archive} {q : Description} {c : Compiled}
    (hcompiles : (s.compile q).1 = .ok c) (hsearchable : c.condition.isSearchable = false)
    (offset : UInt64)
    (limit : Option UInt64) (user : String) :
    (s.findPage q offset limit user).1 = .error (.index "a pattern has too many states") := by
  rw [findPage_fst hcompiles, Index.search_of_not_searchable hsearchable]
  rfl

namespace Paging

/-- A name of `n` question marks. -/
def questions (n : Nat) : String := String.ofList (List.replicate n '?')

/-- All characters of `questions n` are question marks. -/
theorem mem_questions {n : Nat} {c : Char} (h : c ∈ (questions n).toList) : c = '?' := by
  rw [questions, String.toList_ofList] at h
  exact (List.mem_replicate.mp h).2

/-- A name of question marks is not blank, and has no blanks around it. -/
theorem nonBlank?_questions {n : Nat} (h : 0 < n) :
    Text.nonBlank? (questions n) = some (questions n) := by
  have hmark : '?' ∈ (questions n).toList := by
    rw [questions, String.toList_ofList]
    exact List.mem_replicate.mpr ⟨Nat.ne_of_gt h, rfl⟩
  have hword : Text.IsWord (questions n) :=
    { ne_empty := fun hnone => List.not_mem_nil (String.toList_eq_nil_iff.mpr hnone ▸ hmark)
      unbroken := fun c hc => by
        rw [mem_questions hc]
        decide }
  exact hword.nonBlank?_eq

/-- The clause for a name of question marks asks for one pattern, of as many `Piece.one`. -/
theorem patterns_questions {n : Nat} (h : 0 < n) :
    (Description.nameClause (questions n)).condition.patterns =
      [List.replicate n .one] := by
  have hwild : Wildcard.hasWildcard (questions n) = true := by
    rw [Wildcard.hasWildcard, questions, String.toList_ofList, List.any_replicate,
      if_neg (Nat.ne_of_gt h)]
    rfl
  have hlower : Text.lower (questions n) = questions n := by
    rw [← String.toList_inj, Text.toList_lower]
    refine Text.lowerWordsFrom_eq_self fun c hc => ?_
    rw [mem_questions hc]
    exact Text.lowerChar_of_lt (by decide)
  rw [Description.nameClause, if_pos hwild, hlower, Clause.patterns_wildcard (by decide),
    Wildcard.pattern, questions, String.toList_ofList, List.map_replicate]
  rfl

/-- A search for a name of a thousand question marks compiles, but no page of it is answered. -/
theorem findPage_refused :
    (∀ id e, (EntityStore.run operations).published.get? id = some e →
      ∃ n, reports.repository.nodes.get? id = some n) ∧
    (∃ c, (reports.compile (.byName (questions 1000))).1 = .ok c) ∧
    ∀ o limit user, (reports.findPage (.byName (questions 1000)) o limit user).1 =
      .error (.index "a pattern has too many states") := by
  have hcompiles := compile_reports (q := .byName (questions 1000)) rfl
  have hmany : Wildcard.isSearchable (List.replicate 1000 .one) = false :=
    Wildcard.isSearchable_ones (Nat.le_refl _)
  refine ⟨exist_reports, ⟨_, hcompiles⟩, Archive.findPage_of_not_searchable hcompiles ?_⟩
  rw [Description.compile_byName (nonBlank?_questions (by decide)), ← Bool.not_eq_true,
    Compiled.isSearchable_alone_iff, List.forall_mem_singleton, patterns_questions (by decide),
    List.forall_mem_singleton, hmany]
  exact Bool.false_ne_true

end Paging

end DocSearch
