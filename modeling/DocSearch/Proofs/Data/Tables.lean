import Mathlib.Data.List.Nodup

/-!
# Looking up what is listed once

Tables are lists here: records and maps are looked up by `List.lookup`, schemas and stored rows by
`List.find?`.  A look-up answers the first entry that fits, and as the keys of a table are all
different, the first one that fits is the only one.

`find?_eq_some_of_pairwise` states this once, for anything that is looked for such that no two
members are: a member that is looked for is found, since what stands in front of it is not looked
for.  For a key (`find?_eq_some_of_nodup`) and for the entries of a table (`lookup_eq_some_iff_mem`)
it becomes the form in which tables are read elsewhere.
-/

namespace DocSearch

section Find

variable {α κ : Type} {l : List α} {x : α}

/-- If no two members of `l` are looked for, the one that is looked for is found by `List.find?`. -/
theorem find?_eq_some_of_pairwise {p : α → Bool}
    (h : l.Pairwise fun y z => p y = true → p z = false) (hx : x ∈ l)
    (hp : p x = true) : l.find? p = some x := by
  obtain ⟨before, after, rfl⟩ := List.append_of_mem hx
  have hbefore := (List.pairwise_append.mp h).2.2
  refine List.find?_eq_some_iff_append.mpr ⟨hp, before, after, rfl, fun y hy => ?_⟩
  cases hpy : p y with
  | false => rfl
  | true =>
    rw [hbefore y hy x (.head _) hpy] at hp
    cases hp

/-- Among members with different keys, `List.find?` finds a member by its `key`. -/
theorem find?_eq_some_of_nodup [BEq κ] [LawfulBEq κ] {key : α → κ} (h : (l.map key).Nodup)
    (hx : x ∈ l) :
    l.find? (key · == key x) = some x := by
  have hdifferent : l.Pairwise fun y z => key y ≠ key z := List.pairwise_map.mp h
  refine find?_eq_some_of_pairwise (hdifferent.imp fun {y z} hyz hy => ?_) hx BEq.rfl
  rw [beq_eq_false_iff_ne, ← eq_of_beq hy]
  exact hyz.symm

end Find

section Lookup

variable {κ β : Type} [BEq κ] [LawfulBEq κ] {l : List (κ × β)} {k : κ} {v : β}

/-- `List.lookup` is `List.find?` for an entry of the key. -/
theorem lookup_eq_map_find? : ∀ l : List (κ × β), l.lookup k = (l.find? (·.1 == k)).map (·.2)
  | [] => rfl
  | e :: l => by
    rw [List.lookup_cons, List.find?_cons, lookup_eq_map_find? l, BEq.comm]
    cases e.1 == k <;> rfl

/-- In a table with different keys, a key is looked up as `v` iff the table has this entry. -/
theorem lookup_eq_some_iff_mem (h : (l.map (·.1)).Nodup) : l.lookup k = some v ↔ (k, v) ∈ l := by
  rw [lookup_eq_map_find?, Option.map_eq_some_iff]
  constructor
  · rintro ⟨e, he, rfl⟩
    have hkey := List.find?_some he
    rw [← eq_of_beq hkey]
    exact List.mem_of_find?_eq_some he
  · exact fun hmem => ⟨(k, v), find?_eq_some_of_nodup h hmem, rfl⟩

end Lookup

end DocSearch
