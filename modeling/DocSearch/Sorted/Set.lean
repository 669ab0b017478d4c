/-!
# Finite sets as increasing lists

`SortedSet α` holds each member once, in increasing order, so that a set is determined by its
members.  `SortedSet.insert` puts a member at its place and keeps the order; `SortedSet.mem_insert`
and `SortedSet.mem_ofList` say what it adds.

What is asked of `<` are the library's classes: `≤` is a linear order and `<` the strict part of
it.  Texts are ordered by code point, which is also the order of their UTF-8 bytes; days, points in
time and domains have instances of their own.
-/

namespace DocSearch

/-- A finite set, listed in increasing order. -/
structure SortedSet (α : Type) [LT α] where
  toList : List α
  increasing : toList.Pairwise (· < ·)

namespace SortedSet

variable {α : Type} [LT α]

/-- The set without members. -/
def empty : SortedSet α := ⟨[], .nil⟩

instance : Inhabited (SortedSet α) := ⟨empty⟩

instance : Membership α (SortedSet α) := ⟨fun s a => a ∈ s.toList⟩

/-- To be a member of `s` is to be listed. -/
theorem mem_iff {a : α} {s : SortedSet α} : a ∈ s ↔ a ∈ s.toList := Iff.rfl

instance [DecidableEq α] : DecidableEq (SortedSet α) := fun s t =>
  decidable_of_iff (s.toList = t.toList)
    ⟨fun h => by cases s; cases t; cases h; rfl, fun h => h ▸ rfl⟩

/-- Whether `a` is a member of `s`. -/
def contains [DecidableEq α] (s : SortedSet α) (a : α) : Bool := s.toList.contains a

/-- Whether every member of `s` is one of `t`. -/
def isSubset [DecidableEq α] (s t : SortedSet α) : Bool := s.toList.all t.contains

/-- The number of members. -/
def size (s : SortedSet α) : Nat := s.toList.length

section Insert

variable [DecidableLT α]

/-- Puts `a` at its place in an increasing list, unless it is there already. -/
def insertSorted (a : α) : List α → List α
  | [] => [a]
  | b :: l => if a < b then a :: b :: l else if b < a then b :: insertSorted a l else b :: l

variable [LE α] [Std.IsLinearOrder α] [Std.LawfulOrderLT α]

/-- Putting `a` in adds `a` and keeps the others. -/
theorem mem_insertSorted {a x : α} : ∀ {l : List α}, x ∈ insertSorted a l ↔ x = a ∨ x ∈ l
  | [] => by simp [insertSorted]
  | b :: l => by
    unfold insertSorted
    split
    · simp
    · split
      · simp only [List.mem_cons, mem_insertSorted (l := l)]
        exact or_left_comm
      · rename_i h₁ h₂
        have : a = b := Std.le_antisymm (Std.not_lt.mp h₂) (Std.not_lt.mp h₁)
        simp [this]

/-- Putting `a` in keeps the list increasing: it goes before the first member that is greater. -/
theorem insertSorted_increasing {a : α} :
    ∀ {l : List α}, l.Pairwise (· < ·) → (insertSorted a l).Pairwise (· < ·)
  | [], _ => by simp [insertSorted]
  | b :: l, h => by
    have hb := List.pairwise_cons.mp h
    unfold insertSorted
    split
    · rename_i hab
      refine List.pairwise_cons.mpr ⟨fun x hx => ?_, h⟩
      rcases List.mem_cons.mp hx with rfl | hx
      · exact hab
      · exact Std.lt_trans hab (hb.1 x hx)
    · split
      · rename_i hba
        refine List.pairwise_cons.mpr ⟨fun x hx => ?_, insertSorted_increasing hb.2⟩
        rcases mem_insertSorted.mp hx with rfl | hx
        · exact hba
        · exact hb.1 x hx
      · exact h

/-- The set with `a` added. -/
def insert (a : α) (s : SortedSet α) : SortedSet α :=
  ⟨insertSorted a s.toList, insertSorted_increasing s.increasing⟩

/-- A member of `s.insert a` is `a` or was a member before. -/
theorem mem_insert {a x : α} {s : SortedSet α} : x ∈ s.insert a ↔ x = a ∨ x ∈ s :=
  mem_insertSorted

/-- The set of the members of the list `l`. -/
def ofList (l : List α) : SortedSet α := l.foldr insert empty

/-- The members of `ofList l` are those of `l`, in whichever order they stand there. -/
theorem mem_ofList {x : α} : ∀ {l : List α}, x ∈ ofList l ↔ x ∈ l
  | [] => by simp [ofList, empty, mem_iff]
  | a :: l => by
    have ih := mem_ofList (x := x) (l := l)
    simp only [ofList, List.foldr_cons] at ih ⊢
    simp only [mem_insert, ih, List.mem_cons]

end Insert

end SortedSet

end DocSearch
