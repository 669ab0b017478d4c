/-!
# Ranges of texts with a common beginning

Texts are ordered character by character (`lt_iff_toList_lt`), so a common beginning does not count
for their order (`append_lt_append_iff`).  What lies between two texts that begin alike begins like
them (`exists_append_of_between`), and goes on between what they go on with (`between_append_iff`).
A filter on a range of values asks for this behind the name of a property.
-/

namespace DocSearch.Text

/-- Texts are ordered as the lists of their characters. -/
theorem lt_iff_toList_lt {s t : String} : s < t ↔ s.toList < t.toList := Iff.rfl

theorem append_lt_append_iff {α : Type} [LT α] [Std.Irrefl (α := α) (· < ·)] {a b : List α} :
    ∀ {p : List α}, p ++ a < p ++ b ↔ a < b
  | [] => Iff.rfl
  | c :: p => by
    rw [List.cons_append, List.cons_append, List.cons_lt_cons_iff, append_lt_append_iff]
    constructor
    · intro h
      exact (h.resolve_left (Std.Irrefl.irrefl c)).2
    · intro h
      exact .inr ⟨rfl, h⟩

theorem exists_append_of_between {a b : List Char} : ∀ {p x : List Char},
    ¬ x < p ++ a → ¬ p ++ b < x → ∃ r, x = p ++ r ∧ ¬ r < a ∧ ¬ b < r
  | [], x, hax, hxb => ⟨x, rfl, hax, hxb⟩
  | c :: p, [], hax, _ => absurd (List.nil_lt_cons c (p ++ a)) hax
  | c :: p, d :: x, hax, hxb => by
    rw [List.cons_append, List.cons_lt_cons_iff, not_or] at hax hxb
    -- The text cannot leave the common beginning: it would be below the one end or above the other.
    have hdc : d = c := Char.le_antisymm (Char.not_lt.mp hxb.1) (Char.not_lt.mp hax.1)
    subst hdc
    obtain ⟨r, rfl, har, hrb⟩ := exists_append_of_between (fun h => hax.2 ⟨rfl, h⟩)
      (fun h => hxb.2 ⟨rfl, h⟩)
    exact ⟨r, rfl, har, hrb⟩

/-- The texts between two that begin alike are those that begin so and go on between them. -/
theorem between_append_iff {p a b x : String} :
    (p ++ a ≤ x ∧ x ≤ p ++ b) ↔ ∃ r, x = p ++ r ∧ a ≤ r ∧ r ≤ b := by
  simp only [← String.not_lt, lt_iff_toList_lt, String.toList_append]
  constructor
  · rintro ⟨hax, hxb⟩
    obtain ⟨r, hx, har, hrb⟩ := exists_append_of_between hax hxb
    refine ⟨String.ofList r, ?_, ?_, ?_⟩
    · rw [← String.toList_inj, hx]
      simp
    · rwa [String.toList_ofList]
    · rwa [String.toList_ofList]
  · rintro ⟨r, rfl, har, hrb⟩
    rw [String.toList_append, append_lt_append_iff, append_lt_append_iff]
    exact ⟨har, hrb⟩

end DocSearch.Text
