import Mathlib.Data.List.Forall2

/-!
# Steps that may fail

What follows from the answer of steps in `Except`, whatever the failures are.

* Two steps one after the other succeed iff both do (`bind_eq_ok_iff`), and fail with a failure only
  if one of them does (`bind_ne_error`).
* A list of steps succeeds iff each of them does, and its answer lists theirs in order
  (`mapM_eq_ok_iff`); so a list of steps whose answers are known is answered by all of these
  (`mapM_eq_ok`).
* If some of the steps fail, all in the same way, the whole list fails in this way
  (`mapM_eq_error`).

A computation is taken apart with these from its end to its beginning, so that no proof unfolds a
`do` block.
-/

namespace DocSearch

variable {α β ε : Type}

/-! ## One step after another -/

/-- Two steps succeed iff the first one answers some `a` and the second one succeeds from there. -/
theorem bind_eq_ok_iff {x : Except ε α} {f : α → Except ε β} {b : β} :
    (x >>= f) = .ok b ↔ ∃ a, x = .ok a ∧ f a = .ok b := by
  cases x with
  | error e =>
    refine iff_of_false (fun h => nomatch h) ?_
    rintro ⟨_, h, _⟩
    cases h
  | ok a => exact ⟨fun h => ⟨a, rfl, h⟩, fun ⟨_, ha, h⟩ => Except.ok.inj ha ▸ h⟩

/-- What two steps answer is what the second one answers from some answer `a` of the first one. -/
theorem bind_eq_ok {x : Except ε α} {f : α → Except ε β} {b : β} (h : (x >>= f) = .ok b) :
    ∃ a, x = .ok a ∧ f a = .ok b := bind_eq_ok_iff.mp h

/-- What is made of an answer is answered iff there is an answer to make it of. -/
theorem map_eq_ok_iff {x : Except ε α} {f : α → β} {b : β} : x.map f = .ok b ↔ ∃ a,
    x = .ok a ∧ f a = b := by
  cases x with
  | error e =>
    refine iff_of_false (fun h => nomatch h) ?_
    rintro ⟨_, h, _⟩
    cases h
  | ok a =>
    exact ⟨fun h => ⟨a, rfl, Except.ok.inj h⟩, fun ⟨_, ha, h⟩ => Except.ok.inj ha ▸ congrArg _ h⟩

/-- A failure that neither of two steps ends with is not that of the two. -/
theorem bind_ne_error {x : Except ε α} {f : α → Except ε β} {e : ε} (hx : x ≠ .error e)
    (hf : ∀ a, f a ≠ .error e) : (x >>= f) ≠ .error e := by
  cases x with
  | error e' =>
    intro h
    exact hx (congrArg Except.error (Except.error.inj h))
  | ok a => exact hf a

/-! ## Lists of steps -/

/-- `List.mapM` succeeds iff it succeeds for each item. -/
theorem mapM_eq_ok_iff {f : α → Except ε β} : ∀ {l : List α} {m : List β},
    l.mapM f = .ok m ↔ List.Forall₂ (fun a b => f a = .ok b) l m
  | [], m => by
    rw [List.mapM_nil, List.forall₂_nil_left_iff]
    exact ⟨fun h => (Except.ok.inj h).symm, fun h => h ▸ rfl⟩
  | a :: l, m => by
    rw [List.mapM_cons, List.forall₂_cons_left_iff]
    cases ha : f a with
    | error e => simp [bind, Except.bind]
    | ok b =>
      cases hl : l.mapM f with
      | error e =>
        have hnone : ∀ m, ¬ List.Forall₂ (fun a b => f a = .ok b) l m := fun m hm => by
          rw [mapM_eq_ok_iff.mpr hm] at hl
          cases hl
        simp [bind, Except.bind, hnone]
      | ok bs =>
        have hrest : ∀ m, List.Forall₂ (fun a b => f a = .ok b) l m ↔ bs = m := fun m => by
          rw [← mapM_eq_ok_iff, hl, Except.ok.injEq]
        simp [bind, Except.bind, pure, Except.pure, hrest, eq_comm]

/-- If each item `a` is answered by `g a`, `List.mapM` answers them all. -/
theorem mapM_eq_ok {f : α → Except ε β} {g : α → β} {l : List α} (h : ∀ a ∈ l, f a = .ok (g a)) :
    l.mapM f = .ok (l.map g) :=
  mapM_eq_ok_iff.mpr (List.forall₂_map_right_iff.mpr (List.forall₂_same.mpr h))

/-- If some steps fail, all of them with the failure `e`, and the others succeed, `List.mapM` fails
with `e`. -/
theorem mapM_eq_error {f : α → Except ε β} {e : ε} : ∀ {l : List α},
    (∀ a ∈ l, f a = .error e ∨ ∃ b, f a = .ok b) → (∃ a ∈ l, f a = .error e) → l.mapM f = .error e
  | [], _, hsome => by simp at hsome
  | a :: l, hall, hsome => by
    obtain ⟨ha, hrest⟩ := List.forall_mem_cons.mp hall
    rw [List.mapM_cons]
    rcases ha with ha | ⟨b, ha⟩
    · rw [ha]
      rfl
    · have hlater : ∃ a ∈ l, f a = .error e := by
        obtain ⟨x, hx, hfails⟩ := hsome
        rcases List.mem_cons.mp hx with rfl | hx
        · rw [ha] at hfails
          cases hfails
        · exact ⟨x, hx, hfails⟩
      rw [ha, mapM_eq_error hrest hlater]
      rfl

end DocSearch
