import DocSearch.Proofs.Sorted.Entries
import DocSearch.Repository.Tree

/-!
# The states of a repository

`Repository.Built` are the states that insertions, removals and changes of keywords lead to from the
repository without nodes.

* Each change is known by the nodes that are found afterwards (`Repository.get?_nodes_insert`,
  `Repository.get?_nodes_remove`, `Repository.get?_nodes_setKeywords`).
* In each of the states a node is kept under its own identifier (`Repository.Built.id_eq`, by induction on
  how the state was reached).
* So the identifiers of the nodes are the keys (`Repository.Built.map_id_values`), and the folders
  below a node are listed once each (`Repository.Built.nodup_childFolders`).

What is claimed of all repositories is stated of these states.
-/

namespace DocSearch.Repository

/-- The states that the repository can be brought to. -/
inductive Built : Repository → Prop
  | empty : Built .empty
  | insert {r : Repository} (built : Built r) (n : Node) : Built (r.insert n)
  | remove {r : Repository} (built : Built r) (id : String) : Built (r.remove id).2
  | setKeywords {r r' : Repository} (built : Built r) {id : String} {keywords : SortedSet String}
      (found : r.setKeywords? id keywords = some r') : Built r'

/-! ## What changes do to the nodes -/

section Changes

variable {r r' : Repository}

theorem get?_nodes_insert (n : Node) (id : String) :
    (r.insert n).nodes.get? id = if id = n.summary.id then some n else r.nodes.get? id :=
  SortedMap.get?_insert

/-- Removing a node leaves the others, also if there is no such node. -/
theorem get?_nodes_remove (gone id : String) :
    (r.remove gone).2.nodes.get? id = if id = gone then none else r.nodes.get? id := by
  unfold remove
  cases hgone : r.nodes.get? gone with
  | none =>
    by_cases hid : id = gone
    · rw [if_pos hid, hid, hgone]
    · rw [if_neg hid]
  | some n => exact SortedMap.get?_erase

/-- `setKeywords?` replaces one node, which was there before. -/
theorem get?_nodes_setKeywords {node : String} {keywords : SortedSet String}
    (h : r.setKeywords? node keywords = some r') :
    ∃ n, r.nodes.get? node = some n ∧ ∀ id, r'.nodes.get? id =
      if id = node then some { n with summary := { n.summary with keywords } }
      else r.nodes.get? id := by
  obtain ⟨n, hn, rfl⟩ := Option.map_eq_some_iff.mp h
  exact ⟨n, hn, fun id => SortedMap.get?_insert⟩

end Changes

/-! ## The nodes of every state -/

/-- A folder, `child`, and the node it lies directly below. -/
def FolderBelow (r : Repository) (parent child : String) : Prop :=
  ∃ n, r.nodes.get? child = some n ∧ n.summary.kind = .folder ∧ n.parent = some parent

namespace Built

/-- In every state a node is kept under its own identifier. -/
theorem id_eq {r : Repository} (h : Built r) :
    ∀ {k : String} {n : Node}, r.nodes.get? k = some n → n.summary.id = k := by
  induction h with
  | empty =>
    intro k n hk
    cases hk
  | @insert r built m ih =>
    intro k n hk
    rw [get?_nodes_insert] at hk
    split at hk
    · rename_i hkm
      cases hk
      exact hkm.symm
    · exact ih hk
  | @remove r built id ih =>
    intro k n hk
    rw [get?_nodes_remove] at hk
    split at hk
    · cases hk
    · exact ih hk
  | @setKeywords r r' built id keywords found ih =>
    intro k n hk
    obtain ⟨m, hm, hget⟩ := get?_nodes_setKeywords found
    rw [hget] at hk
    split at hk
    · rename_i hkid
      cases hk
      exact (ih hm).trans hkid.symm
    · exact ih hk

/-- The folders listed for a node are those directly below it (`FolderBelow`). -/
theorem mem_childFolders_iff {r : Repository} (h : Built r) {parent child : String} :
    child ∈ r.childFolders parent ↔ r.FolderBelow parent child := by
  simp only [childFolders, List.mem_map, List.mem_filter, SortedMap.mem_values_iff, FolderBelow,
    decide_eq_true_eq]
  constructor
  · rintro ⟨n, ⟨⟨k, hk⟩, hn⟩, rfl⟩
    exact ⟨n, (h.id_eq hk).symm ▸ hk, hn⟩
  · rintro ⟨n, hk, hn⟩
    exact ⟨n, ⟨⟨child, hk⟩, hn⟩, h.id_eq hk⟩

/-- The identifiers of the values are the keys. -/
theorem map_id_values {r : Repository} (h : Built r) :
    r.nodes.values.map (·.summary.id) = r.nodes.keys := SortedMap.map_values_eq_keys h.id_eq

/-- The folders below a node are listed once each. -/
theorem nodup_childFolders {r : Repository} (h : Built r) (parent : String) :
    (r.childFolders parent).Nodup := by
  have hkeys : (r.nodes.values.map (·.summary.id)).Nodup := by
    rw [h.map_id_values]
    exact r.nodes.nodup_keys
  exact hkeys.sublist (List.filter_sublist.map _)

end Built

end DocSearch.Repository
