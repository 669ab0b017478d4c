import DocSearch.Sorted.Set

/-!
# Finite maps as lists of entries with increasing keys

`SortedMap κ β` lists each key once, in increasing order, so that two maps with the same entries are
one map.  `SortedMap.insert` replaces the value of a key that is there already, `SortedMap.erase`
drops a key, and `SortedMap.get?` looks one up; `SortedMap.get?_insert` and `SortedMap.get?_erase`
say how the three go together, which is all that most proofs need of a map.

The order of the keys is asked for with the library's classes, and where entries are put in only.
-/

namespace DocSearch

/-- A finite map, its entries listed by increasing key. -/
structure SortedMap (κ : Type) [LT κ] (β : Type) where
  entries : List (κ × β)
  increasing : entries.Pairwise (·.1 < ·.1)

namespace SortedMap

/-! ## Looking up in a list of entries -/

/-- The entry at the front is found under its key, the others behind it. -/
theorem lookup_cons {κ β : Type} [DecidableEq κ] {e x : κ} {w : β} {l : List (κ × β)} :
    ((e, w) :: l).lookup x = if x = e then some w else l.lookup x := by
  by_cases h : x = e
  · subst h
    simp
  · rw [List.lookup_cons, beq_eq_false_iff_ne.mpr h, if_neg h]

/-- What is stored under `x` after the entries of the key `k` are dropped. -/
theorem lookup_filter_ne {κ β : Type} [DecidableEq κ] {k x : κ} :
    ∀ {l : List (κ × β)}, (l.filter (·.1 ≠ k)).lookup x = if x = k then none else l.lookup x
  | [] => by simp
  | (e, w) :: l => by
    have ih := lookup_filter_ne (k := k) (x := x) (l := l)
    rw [lookup_cons]
    by_cases he : e = k
    · subst he
      rw [List.filter_cons_of_neg (by simp), ih]
      by_cases hx : x = e <;> simp [hx]
    · rw [List.filter_cons_of_pos (by simpa using he), lookup_cons, ih]
      by_cases hx : x = e
      · subst hx
        simp [he]
      · simp [hx]

/-! ## Maps -/

variable {κ : Type} [LT κ] {β γ : Type}

/-- The map without entries. -/
def empty : SortedMap κ β := ⟨[], .nil⟩

instance : Inhabited (SortedMap κ β) := ⟨empty⟩

instance [DecidableEq κ] [DecidableEq β] : DecidableEq (SortedMap κ β) := fun s t =>
  decidable_of_iff (s.entries = t.entries)
    ⟨fun h => by cases s; cases t; cases h; rfl, fun h => h ▸ rfl⟩

/-- The number of keys. -/
def size (m : SortedMap κ β) : Nat := m.entries.length

/-- The values, by increasing key. -/
def values (m : SortedMap κ β) : List β := m.entries.map (·.2)

/-- The value stored under the key `k`. -/
def get? [DecidableEq κ] (m : SortedMap κ β) (k : κ) : Option β := m.entries.lookup k

/-- The map without the key `k`. -/
def erase [DecidableEq κ] (m : SortedMap κ β) (k : κ) : SortedMap κ β :=
  ⟨m.entries.filter (·.1 ≠ k), m.increasing.filter _⟩

/-- Nothing is stored in the map without entries. -/
theorem get?_empty [DecidableEq κ] {k : κ} : (empty : SortedMap κ β).get? k = none := rfl

/-- Nothing is stored under an erased key, and what is stored elsewhere stays. -/
theorem get?_erase [DecidableEq κ] {k x : κ} {m : SortedMap κ β} :
    (m.erase k).get? x = if x = k then none else m.get? x := lookup_filter_ne

/-- The map with `f` applied to every value. -/
def mapValues (f : β → γ) (m : SortedMap κ β) : SortedMap κ γ :=
  ⟨m.entries.map fun e => (e.1, f e.2), by simpa [List.pairwise_map] using m.increasing⟩

section Insert

variable [DecidableLT κ]

/-- Puts an entry at its place among entries with increasing keys, replacing one of the same key. -/
def insertSorted (k : κ) (v : β) : List (κ × β) → List (κ × β)
  | [] => [(k, v)]
  | e :: l =>
    if k < e.1 then (k, v) :: e :: l
    else if e.1 < k then e :: insertSorted k v l
    else (k, v) :: l

/-- An entry after one is put in is that one or was there before. -/
theorem key_of_mem_insertSorted {k : κ} {v : β} {x : κ × β} :
    ∀ {l : List (κ × β)}, x ∈ insertSorted k v l → x = (k, v) ∨ x ∈ l
  | [], h => by simpa [insertSorted] using h
  | e :: l, h => by
    unfold insertSorted at h
    split at h
    · simpa using h
    · split at h
      · rcases List.mem_cons.mp h with rfl | h
        · exact .inr (.head _)
        · exact (key_of_mem_insertSorted h).imp id (.tail _)
      · rcases List.mem_cons.mp h with rfl | h
        · exact .inl rfl
        · exact .inr (.tail _ h)

variable [LE κ] [Std.IsLinearOrder κ] [Std.LawfulOrderLT κ]

/-- Putting an entry in keeps the keys increasing: it goes before the first key that is greater. -/
theorem insertSorted_increasing {k : κ} {v : β} :
    ∀ {l : List (κ × β)}, l.Pairwise (·.1 < ·.1) → (insertSorted k v l).Pairwise (·.1 < ·.1)
  | [], _ => by simp [insertSorted]
  | e :: l, h => by
    have he := List.pairwise_cons.mp h
    unfold insertSorted
    split
    · rename_i hke
      refine List.pairwise_cons.mpr ⟨fun x hx => ?_, h⟩
      rcases List.mem_cons.mp hx with rfl | hx
      · exact hke
      · exact Std.lt_trans hke (he.1 x hx)
    · split
      · rename_i hek
        refine List.pairwise_cons.mpr ⟨fun x hx => ?_, insertSorted_increasing he.2⟩
        rcases key_of_mem_insertSorted hx with rfl | hx
        · exact hek
        · exact he.1 x hx
      · rename_i h₁ h₂
        have : k = e.1 := Std.le_antisymm (Std.not_lt.mp h₂) (Std.not_lt.mp h₁)
        exact List.pairwise_cons.mpr ⟨fun x hx => this ▸ he.1 x hx, he.2⟩

/-- What is stored under `x` after an entry of the key `k` is put in. -/
theorem lookup_insertSorted [DecidableEq κ] {k x : κ} {v : β} :
    ∀ {l : List (κ × β)}, (insertSorted k v l).lookup x = if x = k then some v else l.lookup x
  | [] => by simp [insertSorted, lookup_cons]
  | (e, w) :: l => by
    have ih := lookup_insertSorted (k := k) (x := x) (v := v) (l := l)
    unfold insertSorted
    split
    · rw [lookup_cons]
    · split
      · rename_i hek
        rw [lookup_cons, lookup_cons, ih]
        by_cases hx : x = e
        · have hne : x ≠ k := by
            rintro rfl
            exact Std.lt_irrefl (a := x) (by rw [hx] at hek ⊢; exact hek)
          simp [hx, show e ≠ k from hx ▸ hne]
        · simp [hx]
      · rename_i h₁ h₂
        have hke : k = e := Std.le_antisymm (Std.not_lt.mp h₂) (Std.not_lt.mp h₁)
        subst hke
        rw [lookup_cons, lookup_cons]
        by_cases hx : x = k <;> simp [hx]

/-- The map with `v` stored under `k`. -/
def insert (k : κ) (v : β) (m : SortedMap κ β) : SortedMap κ β :=
  ⟨insertSorted k v m.entries, insertSorted_increasing m.increasing⟩

/-- What is stored under `x` after `v` is stored under `k`. -/
theorem get?_insert [DecidableEq κ] {k x : κ} {v : β} {m : SortedMap κ β} :
    (m.insert k v).get? x = if x = k then some v else m.get? x := lookup_insertSorted

/-- The map of a list of entries; of two entries with one key the later one stands. -/
def ofList (l : List (κ × β)) : SortedMap κ β := l.foldl (fun m e => m.insert e.1 e.2) empty

end Insert

end SortedMap

end DocSearch
