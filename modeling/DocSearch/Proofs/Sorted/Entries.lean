import DocSearch.Proofs.Data.Tables
import DocSearch.Sorted.Map
import Mathlib.Data.List.Sort

/-!
# The entries of a sorted map

Looking up in a map is looking through its entries: a key has a value iff the entry is listed
(`SortedMap.get?_eq_some_iff`), and no key is listed twice (`SortedMap.nodup_keys`).

* Entries with increasing keys are those of one map only (`SortedMap.entries_eq_of_mem_iff`), so
  maps that give the same values are equal (`SortedMap.ext_get?`).
* `SortedMap.ofList` makes this map of them (`SortedMap.entries_ofList`), and a map is made of its
  own entries (`SortedMap.ofList_entries`).

The same is said of sets and their members: sets with the same members are equal (`SortedSet.ext`),
and a set is made of its members (`SortedSet.ofList_toList`).
-/

namespace DocSearch

/-! ## Sets -/

namespace SortedSet

variable {α : Type} [LT α] {s t : SortedSet α}

/-- `SortedSet.contains` decides membership. -/
theorem contains_iff [DecidableEq α] {a : α} : s.contains a = true ↔ a ∈ s := List.contains_iff_mem

/-- `SortedSet.isSubset` decides inclusion. -/
theorem isSubset_iff [DecidableEq α] : s.isSubset t = true ↔ ∀ a ∈ s, a ∈ t := by
  simp only [isSubset, List.all_eq_true, contains_iff, mem_iff]

variable [LE α] [Std.LawfulOrderLT α]

theorem nodup_toList (s : SortedSet α) : s.toList.Nodup := s.increasing.nodup

variable [Std.IsLinearOrder α]

/-- Two sets with the same members are equal: their lists increase, so that each is determined by
its members. -/
theorem ext (h : ∀ x, x ∈ s ↔ x ∈ t) : s = t := by
  have hlist : s.toList = t.toList := s.increasing.eq_of_mem_iff t.increasing h
  cases s
  cases t
  cases hlist
  rfl

theorem ofList_toList [DecidableLT α] (s : SortedSet α) : ofList s.toList = s :=
  ext fun _ => mem_ofList

/-- To `insert` a member changes nothing. -/
theorem insert_of_mem [DecidableLT α] {a : α} (h : a ∈ s) : s.insert a = s := ext fun x => by
  rw [mem_insert]
  exact or_iff_right_of_imp fun heq => heq ▸ h

end SortedSet

/-! ## Maps -/

namespace SortedMap

variable {κ β : Type} [LT κ]

/-- The keys, in increasing order. -/
def keys (m : SortedMap κ β) : List κ := m.entries.map (·.1)

theorem length_keys (m : SortedMap κ β) : m.keys.length = m.size := List.length_map _

variable [LE κ] [Std.LawfulOrderLT κ]

/-- No key is listed twice. -/
theorem nodup_keys (m : SortedMap κ β) : m.keys.Nodup := by
  have h := m.increasing
  rw [← List.pairwise_map (f := fun e : κ × β => e.1) (R := (· < ·))] at h
  refine h.imp ?_
  intro a b hab heq
  subst heq
  exact Std.lt_irrefl hab

section Lookup

variable [DecidableEq κ]

/-- A key has a value iff the entry is listed. -/
theorem get?_eq_some_iff {m : SortedMap κ β} {k : κ} {v : β} :
    m.get? k = some v ↔ (k, v) ∈ m.entries := lookup_eq_some_iff_mem m.nodup_keys

theorem mem_values_iff {m : SortedMap κ β} {v : β} : v ∈ m.values ↔ ∃ k, m.get? k = some v := by
  simp only [values, List.mem_map, get?_eq_some_iff]
  constructor
  · rintro ⟨⟨k, w⟩, hmem, rfl⟩
    exact ⟨k, hmem⟩
  · rintro ⟨k, hmem⟩
    exact ⟨(k, v), hmem, rfl⟩

theorem mem_keys_iff {m : SortedMap κ β} {k : κ} : k ∈ m.keys ↔ ∃ v, m.get? k = some v := by
  simp only [keys, List.mem_map, get?_eq_some_iff]
  constructor
  · rintro ⟨⟨k, v⟩, hmem, rfl⟩
    exact ⟨v, hmem⟩
  · rintro ⟨v, hmem⟩
    exact ⟨(k, v), hmem, rfl⟩

/-- If each value states its key, the values state the keys. -/
theorem map_values_eq_keys {m : SortedMap κ β} {stated : β → κ}
    (h : ∀ {k v}, m.get? k = some v → stated v = k) :
    m.values.map stated = m.keys := by
  rw [values, keys, List.map_map]
  exact List.map_congr_left fun e he => h (get?_eq_some_iff.mpr he)

theorem get?_mapValues {γ : Type} {f : β → γ} {m : SortedMap κ β} {k : κ} :
    (m.mapValues f).get? k = (m.get? k).map f := by
  apply Option.ext
  intro v
  rw [get?_eq_some_iff, mapValues, List.mem_map, Option.map_eq_some_iff]
  simp only [get?_eq_some_iff]
  constructor
  · rintro ⟨e, he, heq⟩
    cases heq
    exact ⟨e.2, he, rfl⟩
  · rintro ⟨w, hw, rfl⟩
    exact ⟨_, hw, rfl⟩

/-! ## Maps from their entries -/

variable [Std.IsLinearOrder κ]

/-- A list with increasing keys that has the entries of a map is the list of its `entries`. -/
theorem entries_eq_of_mem_iff {m : SortedMap κ β} {l : List (κ × β)} (hl : l.Pairwise (·.1 < ·.1))
    (h : ∀ k v, m.get? k = some v ↔ (k, v) ∈ l) : m.entries = l := by
  have hirrefl : Std.Irrefl fun a b : κ × β => a.1 < b.1 := ⟨fun _ => Std.lt_irrefl⟩
  have hantisymm : Std.Antisymm fun a b : κ × β => a.1 < b.1 :=
    ⟨fun _ _ hab hba => absurd (Std.lt_trans hab hba) Std.lt_irrefl⟩
  refine m.increasing.eq_of_mem_iff hl fun e => ?_
  rw [← h, get?_eq_some_iff]

/-- Maps that give the same values are equal. -/
theorem ext_get? {m m' : SortedMap κ β} (h : ∀ k, m.get? k = m'.get? k) : m = m' := by
  have hentries : m.entries = m'.entries := entries_eq_of_mem_iff m'.increasing fun k v => by
    rw [h, get?_eq_some_iff]
  cases m
  cases m'
  cases hentries
  rfl

end Lookup

variable [Std.IsLinearOrder κ] [DecidableLT κ]

/-- An entry with a key beyond all others goes to the end. -/
theorem insertSorted_of_forall_lt {k : κ} {v : β} : ∀ {l : List (κ × β)}, (∀ e ∈ l, e.1 < k) →
    insertSorted k v l = l ++ [(k, v)]
  | [], _ => rfl
  | e :: l, h => by
    have he := h e (.head _)
    have hnot : ¬ k < e.1 := fun hlt => Std.lt_irrefl (Std.lt_trans hlt he)
    rw [insertSorted, if_neg hnot, if_pos he,
      insertSorted_of_forall_lt fun x hx => h x (.tail _ hx)]
    rfl

theorem entries_foldl_insert : ∀ {l : List (κ × β)} {m : SortedMap κ β},
    (m.entries ++ l).Pairwise (·.1 < ·.1) →
    (l.foldl (fun m e => m.insert e.1 e.2) m).entries = m.entries ++ l
  | [], m, _ => (List.append_nil _).symm
  | e :: l, m, h => by
    have hlast : ∀ x ∈ m.entries, x.1 < e.1 := fun x hx =>
      (List.pairwise_append.mp h).2.2 x hx e (.head _)
    have hinsert : (m.insert e.1 e.2).entries = m.entries ++ [e] := insertSorted_of_forall_lt hlast
    rw [List.foldl_cons, entries_foldl_insert (by rwa [hinsert, ← List.append_cons]), hinsert,
      ← List.append_cons]

/-- Entries with increasing keys are those of the map made of them. -/
theorem entries_ofList {l : List (κ × β)} (h : l.Pairwise (·.1 < ·.1)) : (ofList l).entries = l :=
  entries_foldl_insert h

/-- A map is made of its `entries`. -/
theorem ofList_entries (m : SortedMap κ β) : ofList m.entries = m := by
  have hentries := entries_ofList m.increasing
  cases hmap : ofList m.entries
  rw [hmap] at hentries
  cases m
  cases hentries
  rfl

end SortedMap

end DocSearch
