import DocSearch.Proofs.Repository.Built
import DocSearch.Repository.Scope
import Mathlib.Data.List.Nodup
import Mathlib.Data.List.Perm.Subperm
import Mathlib.Logic.Relation

/-!
# The folders below a folder

`Scope.resolve` goes from folder to folder with a queue.  A `FolderWalk` is that search between two
visits; `FolderWalk.visited_after` says that the two visit the same.

* What holds of it at any time is `FolderWalk.Sound`: what is in the queue or was visited was seen
  once, was reached from the root, and the folders below a visited one were all seen.  A visit keeps
  it (`FolderWalk.Sound.next`), so all visits do (`FolderWalk.Sound.after`).
* Every visit adds a folder to those visited (`FolderWalk.length_visited_after`), of which there are
  not more than nodes and the root (`FolderWalk.Sound.length_le`).  So the queue runs empty, also
  where the links form cycles (`FolderWalk.queue_after_eq_nil`).
* Then exactly the folders that can be reached were visited (`FolderWalk.Sound.mem_visited_iff`).

From these, `Scope.resolve_covers_reachable` says what resolving any path gives.
-/

namespace DocSearch

/-- The search for the folders below a root, between two visits. -/
structure FolderWalk where
  /-- The folders that were in the queue at some time. -/
  seen : List String
  queue : List String
  /-- The folders visited, the first one first. -/
  visited : List String

namespace FolderWalk

/-- The search before the first visit. -/
def start (root : String) : FolderWalk := ⟨[root], [root], []⟩

/-- The folders below a node that were not seen yet. -/
def fresh (r : Repository) (w : FolderWalk) (id : String) : List String :=
  (r.childFolders id).filter fun child => !w.seen.contains child

/-- The search after one more visit; it rests once the queue is empty. -/
def next (r : Repository) (w : FolderWalk) : FolderWalk :=
  match w.queue with
  | [] => w
  | id :: queue => ⟨w.fresh r id ++ w.seen, queue ++ w.fresh r id, w.visited ++ [id]⟩

/-- The search after some visits. -/
def after (r : Repository) : Nat → FolderWalk → FolderWalk
  | 0, w => w
  | n + 1, w => after r n (w.next r)

theorem after_of_queue_nil {r : Repository} {w : FolderWalk} (h : w.queue = []) :
    ∀ n, w.after r n = w
  | 0 => rfl
  | n + 1 => by
    have hnext : w.next r = w := by rw [next, h]
    rw [after, hnext]
    exact after_of_queue_nil h n

/-- `Scope.visit` lists what the search visits. -/
theorem visited_after (r : Repository) :
    ∀ (n : Nat) (w : FolderWalk),
      (w.after r n).visited = w.visited ++ Scope.visit r n w.seen w.queue
  | 0, w => by simp [after, Scope.visit]
  | n + 1, ⟨seen, [], visited⟩ => by
    rw [after_of_queue_nil rfl]
    simp [Scope.visit]
  | n + 1, ⟨seen, id :: queue, visited⟩ => by
    rw [after, visited_after r n]
    simp [next, fresh, Scope.visit]

/-- What holds of a search from `root` at any time. -/
structure Sound (r : Repository) (root : String) (w : FolderWalk) : Prop where
  root_seen : root ∈ w.seen
  nodup : w.seen.Nodup
  /-- What was seen was visited or waits. -/
  seen_perm : w.seen.Perm (w.visited ++ w.queue)
  reached : ∀ id ∈ w.seen, Relation.ReflTransGen r.FolderBelow root id
  closed : ∀ id ∈ w.visited, ∀ child, r.FolderBelow id child → child ∈ w.seen

namespace Sound

variable {r : Repository} {root : String} {w : FolderWalk}

theorem start (r : Repository) (root : String) : Sound r root (start root) where
  root_seen := List.mem_singleton.mpr rfl
  nodup := List.nodup_singleton root
  seen_perm := List.Perm.refl _
  reached := by
    intro id hid
    rw [List.mem_singleton.mp hid]
  closed := by
    intro id hid
    exact absurd hid List.not_mem_nil

/-- The folders that are `fresh` are those below a node that were not seen. -/
theorem mem_fresh_iff (built : r.Built) {id child : String} :
    child ∈ w.fresh r id ↔ r.FolderBelow id child ∧ child ∉ w.seen := by
  simp [fresh, built.mem_childFolders_iff]

/-- A visit moves the head of the queue to the visited and appends what is fresh below it. -/
theorem next (built : r.Built) (h : Sound r root w) : Sound r root (w.next r) := by
  obtain ⟨seen, queue, visited⟩ := w
  cases queue with
  | nil => exact h
  | cons id queue =>
    have hid : id ∈ seen := h.seen_perm.mem_iff.mpr (by simp)
    refine ⟨?_, ?_, ?_, ?_, ?_⟩
    · exact List.mem_append_right _ h.root_seen
    · refine List.nodup_append.mpr ⟨(built.nodup_childFolders id).filter _, h.nodup, ?_⟩
      rintro a ha b hb rfl
      exact ((mem_fresh_iff built).mp ha).2 hb
    -- Only the order differs: what is fresh goes in front of what was seen, but behind the queue.
    · show List.Perm (_ ++ seen) (visited ++ [id] ++ (queue ++ _))
      refine (List.perm_append_comm.trans (h.seen_perm.append_right _)).trans ?_
      simp
    · intro x hx
      rcases List.mem_append.mp hx with hx | hx
      · exact (h.reached id hid).tail ((mem_fresh_iff built).mp hx).1
      · exact h.reached x hx
    · intro x hx child hchild
      rcases List.mem_append.mp hx with hx | hx
      · exact List.mem_append_right _ (h.closed x hx child hchild)
      · rw [List.mem_singleton.mp hx] at hchild
        -- A child of the folder visited now was seen before, or it is fresh.
        by_cases hseen : child ∈ seen
        · exact List.mem_append_right _ hseen
        · exact List.mem_append_left _ ((mem_fresh_iff built).mpr ⟨hchild, hseen⟩)

/-- Any number of visits keeps `Sound`. -/
theorem after (built : r.Built) : ∀ (n : Nat) {w : FolderWalk}, Sound r root w →
    Sound r root (w.after r n)
  | 0, _, h => h
  | n + 1, _, h => after built n (h.next built)

/-- Apart from the `root`, only folders that exist are seen. -/
theorem seen_subset (h : Sound r root w) : ∀ id ∈ w.seen, id ∈ root :: r.nodes.keys := by
  intro id hid
  rcases Relation.ReflTransGen.cases_tail (h.reached id hid) with heq | ⟨parent, _, hbelow⟩
  · rw [heq]
    exact .head _
  · obtain ⟨n, hn, _⟩ := hbelow
    exact .tail _ (SortedMap.mem_keys_iff.mpr ⟨n, hn⟩)

/-- No more folders are visited than there are nodes, the root counted apart. -/
theorem length_le (h : Sound r root w) : w.visited.length + w.queue.length ≤ r.size + 1 := by
  have hsub : w.seen.length ≤ (root :: r.nodes.keys).length :=
    (h.nodup.subperm h.seen_subset).length_le
  have hlen : w.seen.length = w.visited.length + w.queue.length := by
    rw [h.seen_perm.length_eq, List.length_append]
  rw [List.length_cons, SortedMap.length_keys] at hsub
  rw [Repository.size]
  omega

/-- Once the queue is empty, the visited folders are those that can be reached. -/
theorem mem_visited_iff (h : Sound r root w) (done : w.queue = []) {id : String} :
    id ∈ w.visited ↔ Relation.ReflTransGen r.FolderBelow root id := by
  have hperm : w.seen.Perm w.visited := by
    have hp := h.seen_perm
    rwa [done, List.append_nil] at hp
  constructor
  · intro hid
    exact h.reached id (hperm.mem_iff.mpr hid)
  · intro hreach
    induction hreach with
    | refl => exact hperm.mem_iff.mp h.root_seen
    -- The folder above was visited, so this one was seen, and nothing waits any more.
    | tail _ hbelow ih => exact hperm.mem_iff.mp (h.closed _ ih _ hbelow)

end Sound

/-- Unless the queue runs empty before, every visit adds one folder to those visited. -/
theorem length_visited_after (r : Repository) :
    ∀ (n : Nat) (w : FolderWalk), (w.after r n).queue ≠ [] →
      (w.after r n).visited.length = w.visited.length + n
  | 0, _, _ => rfl
  | n + 1, ⟨seen, [], visited⟩, h => by
    rw [after_of_queue_nil rfl] at h
    exact absurd rfl h
  | n + 1, ⟨seen, id :: queue, visited⟩, h => by
    rw [after] at h ⊢
    rw [length_visited_after r n _ h]
    simp only [next, List.length_append, List.length_singleton]
    omega

/-- The search comes to its end. -/
theorem queue_after_eq_nil {r : Repository} (built : r.Built) (root : String) :
    ((start root).after r (r.size + 1)).queue = [] := by
  by_contra hne
  -- Every visit found a folder, which makes one more than there are.
  have hvisits := length_visited_after r (r.size + 1) (start root) hne
  have hbound := ((Sound.start r root).after built (r.size + 1)).length_le
  have hqueue := List.length_pos_iff.mpr hne
  simp only [start, List.length_nil] at hvisits
  simp only [start] at hbound hqueue
  omega

end FolderWalk

namespace Scope

/-- The folders found are those that can be reached from the `root`. -/
theorem mem_foldersFrom_iff {r : Repository} (built : r.Built) {root id : String} :
    id ∈ foldersFrom r root ↔ Relation.ReflTransGen r.FolderBelow root id := by
  have hvisited := FolderWalk.visited_after r (r.size + 1) (.start root)
  have hsound := (FolderWalk.Sound.start r root).after built (r.size + 1)
  rw [← hsound.mem_visited_iff (FolderWalk.queue_after_eq_nil built root), hvisited]
  simp [FolderWalk.start, foldersFrom]

/-- Resolving a path comes to its end:
* A reserved path has the empty scope.
* Any other fails iff no identifier is entered for it.
* Else it covers the node entered for it and every folder that can be reached from there, whatever
  the links between the folders are. -/
theorem resolve_covers_reachable {r : Repository} (built : r.Built) (path : String) :
    (isReserved path = true → resolve r path = .ok empty) ∧
    (∀ e, resolve r path = .error e ↔
      isReserved path = false ∧ r.idOfPath? (Text.trimmed path) = none ∧
        e = .pathNotFound (Text.trimmed path)) ∧
    (∀ root, isReserved path = false → r.idOfPath? (Text.trimmed path) = some root →
      ∃ scope, resolve r path = .ok scope ∧ scope.root = some root ∧
        (∀ id, id ∈ scope.folders ↔ Relation.ReflTransGen r.FolderBelow root id) ∧
        ∃ n ≤ r.size + 1, ((FolderWalk.start root).after r n).queue = [] ∧
          scope.folders = .ofList ((FolderWalk.start root).after r n).visited) := by
  refine ⟨?_, ?_, ?_⟩
  · intro reserved
    rw [resolve, if_pos reserved]
  · intro e
    unfold resolve
    cases hres : isReserved path with
    | true => simp
    | false =>
      cases hid : r.idOfPath? (Text.trimmed path) with
      | none => simp [hid, eq_comm]
      | some root => simp [hid]
  · intro root notReserved hid
    have hresolve : resolve r path = .ok ⟨some root, .ofList (foldersFrom r root)⟩ := by
      simp [resolve, notReserved, hid]
    -- As many rounds as there are nodes, and one more, empty the queue whatever the links.
    have hvisited := FolderWalk.visited_after r (r.size + 1) (.start root)
    refine ⟨_, hresolve, rfl, ?_, r.size + 1, Nat.le_refl _, ?_, ?_⟩
    · intro id
      rw [SortedSet.mem_ofList, mem_foldersFrom_iff built]
    · exact FolderWalk.queue_after_eq_nil built root
    · rw [hvisited]
      rfl

/-- Two folders below each other, one below itself and one below a node that does not exist. -/
def tangled : Repository :=
  let folder (id path parent : String) : Node :=
    ⟨⟨id, .folder, path, none, none, .empty⟩, parent, none⟩
  (((Repository.empty.insert (folder "a" "/x/a" "b")).insert (folder "b" "/x/b" "a")).insert
    (folder "c" "/x/c" "c")).insert (folder "d" "/x/d" "gone")

theorem built_tangled : tangled.Built := .insert (.insert (.insert (.insert .empty _) _) _) _

/-- The folders below each other are found from one of them, and the other two are not. -/
theorem resolve_tangled : tangled.Built ∧ ∃ scope, resolve tangled " /x/b/ " = .ok scope ∧
    scope.root = some "b" ∧ "a" ∈ scope.folders ∧ "c" ∉ scope.folders ∧ "d" ∉ scope.folders := by
  refine ⟨built_tangled, ?_⟩
  obtain ⟨scope, hscope, hroot, hmem, _⟩ :=
    (resolve_covers_reachable built_tangled " /x/b/ ").2.2 "b" (by decide +kernel)
      (by decide +kernel)
  have hba : tangled.FolderBelow "b" "a" := ⟨_, rfl, rfl, rfl⟩
  have heq : resolve tangled " /x/b/ " = .ok ⟨some "b", .ofList ["a", "b"]⟩ := by decide +kernel
  have hfolders : scope.folders = .ofList ["a", "b"] := by
    rw [heq] at hscope
    cases hscope
    rfl
  refine ⟨scope, hscope, hroot, (hmem "a").mpr (.single hba), ?_, ?_⟩
  · simp [hfolders, SortedSet.mem_ofList]
  · simp [hfolders, SortedSet.mem_ofList]

end Scope

end DocSearch
