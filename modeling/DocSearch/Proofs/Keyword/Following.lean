import DocSearch.Keyword.Cache
import DocSearch.Proofs.Data.Results
import DocSearch.Proofs.Query.StoredForm
import DocSearch.Proofs.Repository.Built

/-!
# A cache that follows the repository

`KeywordCache.Follows` are the states that a repository and a cache reach together when the rows of
some users are filled from the repository and every later change of the repository is made in the
cache too, for those of the users who may read the node.

* `Repository.keywordsFor?` is what a user is shown of the keywords of a node, with one lemma for
  each change of the repository.
* `KeywordCache.row?` is what the cache stores for it, with one lemma for each operation of the
  cache.
* Announcing a changed node keeps the two in step (`KeywordCache.row?_announce_eq`).

So they agree in every state reached (`KeywordCache.Follows.row?_eq`, by induction on how it was
reached).  The stored rows are read back as they were written (`KeywordCache.decode_encode`), so the
entries of the cache are the keywords of the repository, and clouds do not depend on where they are
computed from (`KeywordCache.entries_and_cloud_of_follows`).
-/

namespace DocSearch

/-! ## What the repository shows -/

namespace Repository

/-- The keywords of the node `id`, if it exists and the `user` may read it. -/
def keywordsFor? (r : Repository) (user id : String) : Option (SortedSet String) :=
  (r.nodes.get? id).bind fun n => if n.isReadable user then some n.summary.keywords else none

variable {r : Repository} {user id : String}

/-- Inserting a node shows its keywords to its readers, and nothing of it to others. -/
theorem keywordsFor?_insert (n : Node) : (r.insert n).keywordsFor? user id =
    if id = n.summary.id then (if n.isReadable user then some n.summary.keywords else none)
    else r.keywordsFor? user id := by
  rw [keywordsFor?, insert, SortedMap.get?_insert]
  split
  · rfl
  · rfl

theorem keywordsFor?_remove (gone : String) : (r.remove gone).2.keywordsFor? user id =
    if id = gone then none else r.keywordsFor? user id := by
  rw [keywordsFor?, get?_nodes_remove]
  split
  · rfl
  · rfl

/-- `Repository.setKeywords?` changes what is shown of this node only, and not to whom. -/
theorem keywordsFor?_setKeywords {r' : Repository} {node : String} {keywords : SortedSet String}
    (h : r.setKeywords? node keywords = some r') : ∃ n, r'.nodes.get? node = some n ∧ ∀ user,
      (n.isReadable user = false → r.keywordsFor? user node = none) ∧
      ∀ id, r'.keywordsFor? user id =
        if id = node then (if n.isReadable user then some n.summary.keywords else none)
        else r.keywordsFor? user id := by
  obtain ⟨m, hm, hget⟩ := get?_nodes_setKeywords h
  refine ⟨{ m with summary := { m.summary with keywords } }, ?_, fun user => ⟨?_, fun id => ?_⟩⟩
  · rw [hget, if_pos rfl]
  · intro hidden
    have hidden : m.isReadable user = false := hidden
    simp [keywordsFor?, hm, hidden]
  · rw [keywordsFor?, hget]
    split
    · rfl
    · rfl

/-! ## As the cache stores it -/

/-- What the rows of a `user` are if they are those of the repository. -/
def keywordRows (r : Repository) (user : String) : List (String × String) :=
  (r.nodeKeywords user).map fun n => (n.node, KeywordCache.encode n.keywords)

namespace Built

variable {r : Repository} (h : Built r) (user : String)

include h

/-- The rows come in the order of the nodes, as `KeywordCache.refresh` stores them. -/
theorem keywordRows_increasing : (r.keywordRows user).Pairwise (·.1 < ·.1) := by
  have hkeys : (r.nodes.values.map (·.summary.id)).Pairwise (· < ·) := by
    rw [h.map_id_values, SortedMap.keys, List.pairwise_map]
    exact r.nodes.increasing
  have hsub : ((r.nodes.values.filter (·.isReadable user)).map (·.summary.id)).Pairwise (· < ·) :=
    hkeys.sublist (List.filter_sublist.map _)
  simpa only [keywordRows, nodeKeywords, List.pairwise_map] using hsub

/-- There is a row for each node that the user may read, with its keywords as `KeywordCache.encode`
writes them. -/
theorem mem_keywordRows_iff {id text : String} : (id, text) ∈ r.keywordRows user ↔
    (r.keywordsFor? user id).map KeywordCache.encode = some text := by
  simp only [keywordRows, nodeKeywords, List.map_map, List.mem_map, List.mem_filter,
    SortedMap.mem_values_iff, Option.map_eq_some_iff, keywordsFor?, Option.bind_eq_some_iff,
    Option.ite_none_right_eq_some, Function.comp_apply, Prod.mk.injEq, Option.some.injEq]
  constructor
  · rintro ⟨n, ⟨⟨k, hk⟩, hreadable⟩, rfl, rfl⟩
    exact ⟨_, ⟨n, (h.id_eq hk).symm ▸ hk, hreadable, rfl⟩, rfl⟩
  · rintro ⟨_, ⟨n, hn, hreadable, rfl⟩, rfl⟩
    exact ⟨n, ⟨⟨id, hn⟩, hreadable⟩, h.id_eq hn, rfl⟩

end Built

end Repository

/-! ## What the cache stores -/

namespace KeywordCache

/-- The stored text of the node `id` as a `user` sees it. -/
def row? (c : KeywordCache) (user id : String) : Option String := (c.rowsOf user).get? id

variable {c : KeywordCache} {user id : String}

/-- `setNode` stores the keywords of one node for one user. -/
theorem row?_setNode (who node : String) (keywords : SortedSet String) :
    (c.setNode who node keywords).row? user id =
      if user = who ∧ id = node then some (encode keywords) else c.row? user id := by
  unfold row? rowsOf setNode
  rw [SortedMap.get?_insert]
  by_cases hwho : user = who
  · subst hwho
    simp [SortedMap.get?_insert, rowsOf]
  · simp [hwho]

/-- `removeNode` takes the node from all users. -/
theorem row?_removeNode (node : String) :
    (c.removeNode node).row? user id = if id = node then none else c.row? user id := by
  unfold row? rowsOf removeNode
  rw [SortedMap.get?_mapValues]
  cases c.rows.get? user with
  | none => simp [SortedMap.get?_empty]
  | some rows => simp [SortedMap.get?_erase]

/-- `refresh` replaces all rows of one user. -/
theorem rowsOf_refresh (who : String) (nodes : List NodeKeywords) :
    (c.refresh who nodes).rowsOf user =
      if user = who then .ofList (nodes.map fun n => (n.node, encode n.keywords)) else
        c.rowsOf user := by
  unfold rowsOf refresh
  rw [SortedMap.get?_insert]
  split
  · rfl
  · rfl

/-- Reading what was stored of some `keywords` gives these keywords. -/
theorem decode_encode (keywords : SortedSet String) : decode (encode keywords) = .ok keywords := by
  rw [decode, encode, Json.read?_write (Value.isPlain_ofTextSet keywords), Option.bind_some,
    Value.asTextSet?_ofTextSet]

/-! ## Changes that are made in both -/

/-- Stores the keywords of a node for those of some `users` who may read it. -/
def announce (c : KeywordCache) (users : List String) (node : String) (n : Node) : KeywordCache :=
  (users.filter n.isReadable).foldl (fun c user => c.setNode user node n.summary.keywords) c

/-- Fills the rows of some `users` from the repository. -/
def fill (c : KeywordCache) (r : Repository) (users : List String) : KeywordCache :=
  users.foldl (fun c user => c.refresh user (r.nodeKeywords user)) c

/-- Storing a node for some users, by induction on the `users`. -/
theorem row?_foldl_setNode {node : String} {keywords : SortedSet String} (users : List String) :
    ∀ c : KeywordCache, (users.foldl (fun c who => c.setNode who node keywords) c).row? user id =
      if user ∈ users ∧ id = node then some (encode keywords) else c.row? user id := by
  induction users with
  | nil => simp
  | cons who users ih =>
    intro c
    rw [List.foldl_cons, ih, row?_setNode]
    by_cases hnode : id = node <;> by_cases hwho : user = who <;> simp [hnode, hwho]

/-- A node that was announced to a `user` who may read it is stored for that user, and all else is
as before. -/
theorem row?_announce {users : List String} (huser : user ∈ users) (node : String) (n : Node) :
    (c.announce users node n).row? user id =
      if n.isReadable user ∧ id = node then some (encode n.summary.keywords) else
        c.row? user id := by
  simp only [announce, row?_foldl_setNode, List.mem_filter, huser, true_and]

/-- The rows of a user whose rows were filled, by whatever steps, are the
`Repository.keywordRows`. -/
theorem rowsOf_fill {r : Repository} (users : List String) : ∀ c : KeywordCache,
    (c.fill r users).rowsOf user =
      if user ∈ users then .ofList (r.keywordRows user) else c.rowsOf user := by
  induction users with
  | nil =>
    intro c
    rfl
  | cons who users ih =>
    intro c
    rw [fill, List.foldl_cons, ← fill, ih, rowsOf_refresh]
    by_cases hwho : user = who
    · subst hwho
      simp [Repository.keywordRows]
    · simp [hwho]

/-- Where the rows of a user are those of the repository, each node is stored as
`Repository.keywordsFor?` shows it. -/
theorem row?_eq_of_rowsOf {r : Repository} (hbuilt : r.Built)
    (h : c.rowsOf user = .ofList (r.keywordRows user)) :
    c.row? user id = (r.keywordsFor? user id).map encode := by
  apply Option.ext
  intro text
  rw [row?, h, SortedMap.get?_eq_some_iff,
    SortedMap.entries_ofList (hbuilt.keywordRows_increasing user), hbuilt.mem_keywordRows_iff]

/-- If a change of the repository concerns one `node`, and to a user who may not read it nothing was
shown of it before, then announcing the node keeps the rows of the user those of the repository. -/
theorem row?_announce_eq {users : List String} {r r' : Repository} {node : String} {n : Node}
    (huser : user ∈ users)
    (before : c.row? user id = (r.keywordsFor? user id).map encode)
    (hidden : n.isReadable user = false → r.keywordsFor? user node = none)
    (shown : r'.keywordsFor? user id =
      if id = node then (if n.isReadable user then some n.summary.keywords else none)
      else r.keywordsFor? user id) :
    (c.announce users node n).row? user id = (r'.keywordsFor? user id).map encode := by
  rw [row?_announce huser, shown, before]
  by_cases hid : id = node
  · subst hid
    cases hreadable : n.isReadable user with
    | true => simp
    | false => simp [hidden hreadable]
  · simp [hid]

/-- The states that a repository and a cache reach together: the rows of some `users` are filled,
and every change of the repository is made in the cache for those of these users who may read the
node. -/
inductive Follows (users : List String) : Repository → KeywordCache → Prop
  | filled {r : Repository} (built : r.Built) (c : KeywordCache) : Follows users r (c.fill r users)
  | setKeywords {r r' : Repository} {c : KeywordCache} (before : Follows users r c) {id : String}
      {keywords : SortedSet String} (changed : r.setKeywords? id keywords = some r') {n : Node}
      (found : r'.nodes.get? id = some n) : Follows users r' (c.announce users id n)
  | remove {r : Repository} {c : KeywordCache} (before : Follows users r c) (id : String) :
      Follows users (r.remove id).2 (c.removeNode id)
  | insert {r : Repository} {c : KeywordCache} (before : Follows users r c) (n : Node)
      (fresh : r.nodes.get? n.summary.id = none) :
      Follows users (r.insert n) (c.announce users n.summary.id n)
  | refresh {r : Repository} {c : KeywordCache} (before : Follows users r c) (user : String) :
      Follows users r (c.refresh user (r.nodeKeywords user))

namespace Follows

variable {users : List String} {r : Repository}

/-- A repository that a cache follows is `Repository.Built`, as every change is. -/
theorem built (h : Follows users r c) : r.Built := by
  induction h with
  | filled built _ => exact built
  | setKeywords _ changed _ ih => exact ih.setKeywords changed
  | remove _ id ih => exact ih.remove id
  | insert _ n _ ih => exact ih.insert n
  | refresh _ _ ih => exact ih

/-- What is stored of a node for one of the `users` is what this user is shown of it. -/
theorem row?_eq (h : Follows users r c) (huser : user ∈ users) (id : String) :
    c.row? user id = (r.keywordsFor? user id).map encode := by
  induction h with
  | @filled r built c =>
    refine row?_eq_of_rowsOf built ?_
    rw [rowsOf_fill, if_pos huser]
  | @setKeywords r r' c _ node keywords changed n found ih =>
    obtain ⟨m, hm, hshown⟩ := Repository.keywordsFor?_setKeywords changed
    cases Option.some.inj (found.symm.trans hm)
    exact row?_announce_eq huser ih (hshown user).1 ((hshown user).2 id)
  | @remove r c _ node ih =>
    rw [row?_removeNode, Repository.keywordsFor?_remove, ih]
    split
    · rfl
    · rfl
  | @insert r c _ n fresh ih =>
    refine row?_announce_eq huser ih (fun _ => ?_) (Repository.keywordsFor?_insert n)
    rw [Repository.keywordsFor?, fresh, Option.bind_none]
  | @refresh r c before who ih =>
    by_cases hwho : user = who
    · refine row?_eq_of_rowsOf before.built ?_
      rw [rowsOf_refresh, if_pos hwho, hwho, Repository.keywordRows]
    · rw [row?, rowsOf_refresh, if_neg hwho]
      exact ih

end Follows

/-! ## What is read from the cache -/

/-- Rows that hold what was stored of some `nodes` are read as these nodes. -/
theorem mapM_decode (nodes : List NodeKeywords) :
    (nodes.map fun n => (n.node, encode n.keywords)).mapM
      (fun row => (decode row.2).map (NodeKeywords.mk row.1)) = .ok nodes := by
  refine mapM_eq_ok_iff.mpr (List.forall₂_map_left_iff.mpr (List.forall₂_same.mpr fun n _ => ?_))
  rw [decode_encode]
  rfl

/-- In every state that a repository and a cache reach together, the `KeywordCache.entries` of one
of the `users` are the keywords that the repository shows this user, and clouds are the same
wherever they are computed from. -/
theorem entries_and_cloud_of_follows {users : List String} {r : Repository} {c : KeywordCache}
    (h : Follows users r c) {user : String} (huser : user ∈ users) :
    c.entries user = .ok (r.nodeKeywords user) ∧
    ∀ filter, CloudStrategy.cached.cloud r c user filter =
      CloudStrategy.live.cloud r c user filter := by
  have hrows : (c.rowsOf user).entries = r.keywordRows user := by
    refine SortedMap.entries_eq_of_mem_iff (h.built.keywordRows_increasing user) fun id text => ?_
    rw [h.built.mem_keywordRows_iff, ← h.row?_eq huser]
    rfl
  have hentries : c.entries user = .ok (r.nodeKeywords user) := by
    rw [entries, hrows]
    exact mapM_decode _
  refine ⟨hentries, fun filter => ?_⟩
  change (c.entries user).map _ = _
  rw [hentries]
  rfl

/-! ### Two users -/

/-- A report that only `ann` may read. -/
def secretReport : Node where
  summary := ⟨"7", .document, "/okm:root/secret.txt", none, none, .ofList ["red", "blue"]⟩
  parent := some "1"
  readers := some ["ann"]

/-- A note that only `bob` may read. -/
def privateNote : Node where
  summary := ⟨"5", .document, "/okm:root/note.txt", none, none, .ofList ["red"]⟩
  parent := some "1"
  readers := some ["bob"]

/-- The `privateNote` with other keywords. -/
def changedNote : Node :=
  { privateNote with summary := { privateNote.summary with keywords := .ofList ["green", "red"] } }

/-- The repository with the `secretReport` and the `privateNote`. -/
def firstRepository : Repository := (Repository.empty.insert secretReport).insert privateNote

/-- The `firstRepository` after the note was changed and the report was taken out. -/
def sharedRepository : Repository := ((firstRepository.insert changedNote).remove "7").2

/-- A cache with a row of a node that is gone, filled with the report, then told of the other
changes and filled again for `ann`. -/
def sharedCache : KeywordCache :=
  (((((KeywordCache.empty.setNode "bob" "3" (.ofList ["old"])).fill
    (Repository.empty.insert secretReport)
    ["ann", "bob"]).announce ["ann", "bob"] "5" privateNote).announce ["ann", "bob"] "5"
    changedNote).removeNode "7").refresh "ann" (sharedRepository.nodeKeywords "ann")

/-- The `sharedCache` follows the `sharedRepository`, one step of `Follows` for each change. -/
theorem follows_shared : Follows ["ann", "bob"] sharedRepository sharedCache := by
  have hfilled : Follows ["ann", "bob"] _ _ := .filled (Repository.Built.empty.insert secretReport)
    (KeywordCache.empty.setNode "bob" "3" (.ofList ["old"]))
  have hinserted := hfilled.insert privateNote (by decide +kernel)
  have hchanged : firstRepository.setKeywords? "5" (.ofList ["green", "red"]) =
      some (firstRepository.insert changedNote) := by decide +kernel
  exact ((hinserted.setKeywords hchanged (by decide +kernel)).remove "7").refresh "ann"

/-- `bob` is shown the note and not the report, from the cache as from the repository. -/
theorem entries_and_cloud_shared :
    sharedCache.entries "bob" = .ok [⟨"5", .ofList ["green", "red"]⟩] ∧
    CloudStrategy.cached.cloud sharedRepository sharedCache "bob" (some (.ofList ["red"])) =
      CloudStrategy.live.cloud sharedRepository sharedCache "bob" (some (.ofList ["red"])) := by
  have hshown : sharedRepository.nodeKeywords "bob" = [⟨"5", .ofList ["green", "red"]⟩] := by
    decide +kernel
  have hbob : "bob" ∈ ["ann", "bob"] := by decide
  obtain ⟨hentries, hcloud⟩ := entries_and_cloud_of_follows follows_shared hbob
  exact ⟨hshown ▸ hentries, hcloud _⟩

end KeywordCache

end DocSearch
