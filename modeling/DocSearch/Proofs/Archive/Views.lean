import DocSearch.Archive.Find
import DocSearch.Proofs.Keyword.Following

/-!
# What a user can tell of the repository

To a user the repository shows the summaries of the nodes that this user may read
(`Repository.view`), and a hit whose node does not exist tells which identifiers there are.
Repositories that are the same in this (`Repository.AlikeFor`) may differ in all else, such as the
path, the kind or the keywords of a node that the user may not read; `AlikeFor.insert` and
`AlikeFor.setKeywords` are two such changes, and they can be repeated (`AlikeFor.trans`).

There are three ways from the nodes to a user, and on each the permission is asked for before
anything is taken or counted:

* a hit that is loaded (`AlikeFor.readable_eq`),
* a scan of the keywords (`AlikeFor.nodeKeywords_eq`),
* the rows that a cache is filled with (`KeywordCache.entries_refresh`).

So no page and no cloud tells two such repositories apart (`Archive.answers_eq_of_alikeFor`).
-/

namespace DocSearch

namespace Repository

/-- The summaries of the nodes that `user` may read, by identifier. -/
def view (r : Repository) (user : String) : SortedMap String Summary :=
  ⟨(r.nodes.entries.filter (·.2.isReadable user)).map fun e => (e.1, e.2.summary),
    List.pairwise_map.mpr (r.nodes.increasing.filter _)⟩

/-- The node `id` can be read by `user`, who is shown the summary `shown` of it. -/
def Shows (r : Repository) (user id : String) (shown : Summary) : Prop :=
  ∃ n, r.nodes.get? id = some n ∧ n.isReadable user = true ∧ n.summary = shown

/-- Two repositories have nodes of the same identifiers, and `user` may read the same of them and is
shown the same. -/
structure AlikeFor (user : String) (r r' : Repository) : Prop where
  same_ids : ∀ id, (∃ n, r.nodes.get? id = some n) ↔ ∃ n, r'.nodes.get? id = some n
  same_shown : ∀ id shown, r.Shows user id shown ↔ r'.Shows user id shown

variable {r r' r'' : Repository} {user id : String}

/-- The `view` holds what the repository `Shows`. -/
theorem get?_view_eq_some_iff {shown : Summary} :
    (r.view user).get? id = some shown ↔ r.Shows user id shown := by
  rw [SortedMap.get?_eq_some_iff, view, Shows]
  constructor
  · intro h
    obtain ⟨⟨k, n⟩, hmem, heq⟩ := List.mem_map.mp h
    obtain ⟨hentry, hreads⟩ := List.mem_filter.mp hmem
    cases heq
    exact ⟨n, SortedMap.get?_eq_some_iff.mpr hentry, hreads, rfl⟩
  · rintro ⟨n, hn, hreads, rfl⟩
    exact List.mem_map.mpr ⟨(id, n),
      List.mem_filter.mpr ⟨SortedMap.get?_eq_some_iff.mp hn, hreads⟩, rfl⟩

/-- A user is shown of a node that exists what the `view` holds of it. -/
theorem summary?_eq (r : Repository) (id user : String) :
    r.summary? id user = (r.nodes.get? id).map fun _ => (r.view user).get? id := by
  rw [summary?]
  refine Option.map_congr fun n hn => ?_
  cases hreads : n.isReadable user with
  | true => exact (get?_view_eq_some_iff.mpr ⟨n, hn, hreads, rfl⟩).symm
  | false =>
    refine (Option.eq_none_iff_forall_ne_some.mpr fun shown hshown => ?_).symm
    obtain ⟨m, hm, hreads', _⟩ := get?_view_eq_some_iff.mp hshown
    rw [Option.some.inj (hm.symm.trans hn), hreads] at hreads'
    cases hreads'

/-- A scan of the keywords goes through the `view`. -/
theorem nodeKeywords_eq (r : Repository) (user : String) :
    r.nodeKeywords user = (r.view user).values.map fun shown => ⟨shown.id, shown.keywords⟩ := by
  rw [nodeKeywords, SortedMap.values, SortedMap.values, view, List.filter_map, List.map_map,
    List.map_map, List.map_map]
  rfl

/-! ## Changes that a user cannot tell -/

namespace AlikeFor

/-- Being alike for a user goes on from one repository to the next. -/
theorem trans (h : AlikeFor user r r') (h' : AlikeFor user r' r'') : AlikeFor user r r'' :=
  ⟨fun id => (h.same_ids id).trans (h'.same_ids id),
    fun id shown => (h.same_shown id shown).trans (h'.same_shown id shown)⟩

/-- A node `old` that a user may not read was replaced by another one, `n`, that the user may not
read. -/
theorem of_get? {old n : Node} (hold : r.nodes.get? id = some old)
    (hunseen : old.isReadable user = false)
    (hunseen' : n.isReadable user = false)
    (hget : ∀ x, r'.nodes.get? x = if x = id then some n else r.nodes.get? x) :
    AlikeFor user r r' := by
  refine ⟨fun x => ?_, fun x shown => ?_⟩
  · rw [hget]
    by_cases hx : x = id
    · rw [if_pos hx, hx]
      exact iff_of_true ⟨old, hold⟩ ⟨n, rfl⟩
    · rw [if_neg hx]
  · rw [Shows, Shows, hget]
    by_cases hx : x = id
    · rw [if_pos hx, hx, hold]
      refine iff_of_false ?_ ?_
      · rintro ⟨_, ⟨⟩, hreads, _⟩
        rw [hunseen] at hreads
        cases hreads
      · rintro ⟨_, ⟨⟩, hreads, _⟩
        rw [hunseen'] at hreads
        cases hreads
    · rw [if_neg hx]

/-- A node can be entered in the place of another one, whatever it is, if a user may read
neither. -/
theorem insert {old n : Node} (hold : r.nodes.get? n.summary.id = some old)
    (hunseen : old.isReadable user = false)
    (hunseen' : n.isReadable user = false) : AlikeFor user r (r.insert n) :=
  of_get? hold hunseen hunseen' (get?_nodes_insert n)

/-- The keywords of a node that a user may not read can be replaced. -/
theorem setKeywords {old : Node} {keywords : SortedSet String} (hold : r.nodes.get? id = some old)
    (hunseen : old.isReadable user = false) (h : r.setKeywords? id keywords = some r') :
    AlikeFor user r r' := by
  obtain ⟨n, hn, hget⟩ := get?_nodes_setKeywords h
  rw [hold] at hn
  cases hn
  have hunseen' : { old with summary := { old.summary with keywords } }.isReadable user = false :=
    hunseen
  exact of_get? hold hunseen hunseen' hget

/-! ## What the user is given -/

section Given

variable (h : AlikeFor user r r')

include h

/-- Repositories that are alike for a user have one `view`. -/
theorem view_eq : r.view user = r'.view user := by
  refine SortedMap.ext_get? fun id => Option.ext fun shown => ?_
  rw [get?_view_eq_some_iff, get?_view_eq_some_iff]
  exact h.same_shown id shown

/-- A user is shown the same summary of a node, or the same error. -/
theorem summary?_eq (id : String) : r.summary? id user = r'.summary? id user := by
  rw [Repository.summary?_eq, Repository.summary?_eq, h.view_eq]
  cases hn : r.nodes.get? id with
  | some n =>
    obtain ⟨n', hn'⟩ := (h.same_ids id).mp ⟨n, hn⟩
    rw [hn']
    rfl
  | none =>
    cases hn' : r'.nodes.get? id with
    | none => rfl
    | some n' =>
      obtain ⟨n, hn''⟩ := (h.same_ids id).mpr ⟨n', hn'⟩
      rw [hn] at hn''
      cases hn''

/-- A user is given the same keywords by both. -/
theorem nodeKeywords_eq : r.nodeKeywords user = r'.nodeKeywords user := by
  rw [Repository.nodeKeywords_eq, Repository.nodeKeywords_eq, h.view_eq]

/-- The `hits` are loaded alike, up to the first one that has no node. -/
theorem readable_eq (hits : List IndexHit) :
    IndexHit.readable r user hits = IndexHit.readable r' user hits := by
  induction hits with
  | nil => rfl
  | cons hit hits ih => rw [IndexHit.readable, IndexHit.readable, h.summary?_eq, ih]

/-- The same answer of the index is shown alike. -/
theorem ofAnswer_eq (answer : Except Failure IndexPage) :
    ResultPage.ofAnswer r user answer = ResultPage.ofAnswer r' user answer := by
  cases answer with
  | error f => rfl
  | ok page => rw [ResultPage.ofAnswer, ResultPage.ofAnswer, h.readable_eq]

end Given

end AlikeFor

end Repository

/-- What a cache holds for a user after it was filled does not depend on what it held before. -/
theorem KeywordCache.entries_refresh (c : KeywordCache) (user : String)
    (nodes : List NodeKeywords) :
    (c.refresh user nodes).entries user = (KeywordCache.empty.refresh user nodes).entries user := by
  rw [entries, entries, rowsOf_refresh, rowsOf_refresh, if_pos rfl, if_pos rfl]

/-- If the repositories of two archives are alike for `user`, then
* for the same `answer` of the index the user is shown the same page, or the search fails alike;
* so a search shows the same if the index answers it alike, be it for a description or for a
  statement;
* the clouds of the user computed from the nodes are the same;
* and so are the clouds computed from the cache once it was filled for the user, whatever it held
  before. -/
theorem Archive.answers_eq_of_alikeFor {s s' : Archive} {user : String}
    (h : s.repository.AlikeFor user s'.repository) :
    (∀ answer, ResultPage.ofAnswer s.repository user answer =
      ResultPage.ofAnswer s'.repository user answer) ∧
    (∀ (request : IndexRequest) (offset : UInt64) (limit : Option UInt64),
      s.index.search request offset.toNat (s.settings.pageSize limit).toNat =
        s'.index.search request offset.toNat (s'.settings.pageSize limit).toNat →
      (s.ask request offset limit user).1 = (s'.ask request offset limit user).1) ∧
    (∀ filter, CloudStrategy.live.cloud s.repository s.cache user filter =
      CloudStrategy.live.cloud s'.repository s'.cache user filter) ∧
    ∀ filter, CloudStrategy.cached.cloud s.repository
        (s.cache.refresh user (s.repository.nodeKeywords user)) user filter =
      CloudStrategy.cached.cloud s'.repository
        (s'.cache.refresh user (s'.repository.nodeKeywords user)) user filter := by
  refine ⟨h.ofAnswer_eq, fun request offset limit hsame => ?_, fun filter => ?_, fun filter => ?_⟩
  · show ResultPage.ofAnswer s.repository user _ = ResultPage.ofAnswer s'.repository user _
    rw [hsame, h.ofAnswer_eq]
  · show Except.ok (KeywordCloud.ofNodes ((s.repository.nodeKeywords user).map _) filter) = _
    rw [h.nodeKeywords_eq]
    rfl
  · show (KeywordCache.entries _ user).map _ = (KeywordCache.entries _ user).map _
    rw [s.cache.entries_refresh, s'.cache.entries_refresh, h.nodeKeywords_eq]

/-! ### A report that Bob may not read -/

namespace Repository

open KeywordCache (firstRepository)

/-- Another report that only Ann may read: a folder at another path, with other keywords. -/
def movedReport : Node where
  summary := ⟨"7", .folder, "/okm:root/plans", none, none, .ofList ["green"]⟩
  parent := none
  readers := some ["ann"]

/-- The repository after the report was moved and its keywords were replaced. -/
def movedRepository : Repository :=
  ((firstRepository.insert movedReport).setKeywords? "7" (.ofList ["white"])).getD .empty

/-- Bob is shown the same after `movedReport` is put in and given other keywords: the report was
hidden from him throughout. -/
theorem alikeFor_moved : AlikeFor "bob" firstRepository movedRepository := by
  have hold : firstRepository.nodes.get? "7" = some KeywordCache.secretReport := by decide +kernel
  have hnew : (firstRepository.insert movedReport).nodes.get? "7" = some movedReport := by
    decide +kernel
  have hset : (firstRepository.insert movedReport).setKeywords? "7" (.ofList ["white"]) =
      some movedRepository := by
    decide +kernel
  exact (AlikeFor.insert hold (by decide) (by decide)).trans (.setKeywords hnew (by decide) hset)

end Repository

namespace Archive

/-- An archive that holds the repository `r` and nothing else. -/
def holding (r : Repository) : Archive := { empty (.fixed "") {} .live with repository := r }

/-- Moving the report changes nothing for Bob, though it does for Ann. -/
theorem answers_eq_moved :
    let s := holding KeywordCache.firstRepository
    let s' := holding Repository.movedRepository
    (∀ answer, ResultPage.ofAnswer s.repository "bob" answer =
      ResultPage.ofAnswer s'.repository "bob" answer) ∧
    (∀ statement, (s.findStatement statement 0 none "bob").1 =
      (s'.findStatement statement 0 none "bob").1) ∧
    (∀ filter, CloudStrategy.live.cloud s.repository s.cache "bob" filter =
      CloudStrategy.live.cloud s'.repository s'.cache "bob" filter) ∧
    s.repository.nodeKeywords "ann" ≠ s'.repository.nodeKeywords "ann" := by
  intro s s'
  have halike : s.repository.AlikeFor "bob" s'.repository := Repository.alikeFor_moved
  obtain ⟨hanswer, hask, hlive, _⟩ := answers_eq_of_alikeFor halike
  exact ⟨hanswer, fun statement => hask (.inMainArea statement) 0 none rfl, hlive, by
    decide +kernel⟩

end Archive

end DocSearch
