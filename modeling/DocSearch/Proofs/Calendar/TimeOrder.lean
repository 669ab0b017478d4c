import DocSearch.Query.Description

/-!
# The order of time

Points in time are ordered by day, then second, then fraction (`Timestamp.lt_iff`); the orders of
days and of times are spelt out, and what is said of them is left to `omega`.

Two facts connect the two orders for the window of a dashboard search: a later time is not on an
earlier day (`Timestamp.day_le_of_le`), and a time of a later day is later
(`Timestamp.le_of_day_lt`). One month before a day there is an earlier day or none
(`Day.monthBefore?_lt`), so a window never begins after the run that moves it
(`Timestamp.monthBefore_le`).
-/

namespace DocSearch

namespace Day

/-- A day made of three numbers has these numbers. -/
theorem of?_eq_some {year : Int} {month day : Nat} {d : Day} (h : of? year month day = some d) :
    d.year = year ∧ d.month = month ∧ d.day = day := by
  unfold of? at h
  split at h
  · cases h
    exact ⟨rfl, rfl, rfl⟩
  · cases h

/-- One month before a day is an earlier day. -/
theorem monthBefore?_lt {d p : Day} (h : d.monthBefore? = some p) : p < d := by
  obtain ⟨hyear, hmonth, _⟩ := of?_eq_some h
  have hpositive : 1 ≤ d.month := by
    have hdate := d.exists_date
    simp only [Calendar.isDate, Bool.and_eq_true, decide_eq_true_eq] at hdate
    omega
  rw [lt_iff]
  by_cases hjanuary : d.month = 1
  · rw [if_pos hjanuary] at hyear
    omega
  · rw [if_neg hjanuary] at hyear hmonth
    omega

end Day

namespace Timestamp

/-- Earlier in time: by `day`, then `secondOfDay`, then `nano`. -/
def Before (a b : Timestamp) : Prop :=
  a.day < b.day ∨ (a.day = b.day ∧
    (a.secondOfDay < b.secondOfDay ∨ (a.secondOfDay = b.secondOfDay ∧ a.nano < b.nano)))

instance : LT Timestamp := ⟨Before⟩

instance : DecidableLT Timestamp := fun a b => by unfold LT.lt instLT Before; exact inferInstance

instance : LE Timestamp := ⟨fun a b => ¬ b < a⟩

instance : DecidableLE Timestamp := fun a b => by unfold LE.le instLE; exact inferInstance

/-- The order of points in time, spelt out for `omega`. -/
theorem lt_iff {a b : Timestamp} : a < b ↔ a.day < b.day ∨ (a.day = b.day ∧
    (a.secondOfDay < b.secondOfDay ∨ (a.secondOfDay = b.secondOfDay ∧ a.nano < b.nano))) := Iff.rfl

/-- No time is before `a` and after it, so `≤` is what `<` is not the other way round. -/
theorem le_iff {a b : Timestamp} : a ≤ b ↔ ¬ b < a := Iff.rfl

/-- A later time is on the same day or a later one. -/
theorem day_le_of_le {a b : Timestamp} (h : a ≤ b) : a.day ≤ b.day := fun hlt => h (.inl hlt)

/-- A time of a later day is later. -/
theorem le_of_day_lt {a b : Timestamp} (h : a.day < b.day) : a ≤ b := by
  rintro (hlt | ⟨heq, _⟩)
  · exact Std.lt_irrefl (Std.lt_trans h hlt)
  · rw [heq] at h
    exact Std.lt_irrefl h

/-- The order of time is reflexive. -/
theorem le_refl (a : Timestamp) : a ≤ a := by
  rw [le_iff, lt_iff]
  have hday : ¬ a.day < a.day := Std.lt_irrefl
  rintro (hlt | ⟨_, hlt | ⟨_, hlt⟩⟩)
  · exact hday hlt
  · exact Nat.lt_irrefl _ hlt
  · exact Nat.lt_irrefl _ hlt

/-- The order of time is transitive. -/
theorem le_trans {a b c : Timestamp} (hab : a ≤ b) (hbc : b ≤ c) : a ≤ c := by
  have hday := Std.le_trans (day_le_of_le hab) (day_le_of_le hbc)
  rintro (hlt | ⟨heq, hlt⟩)
  · exact hday hlt
  · have hb : a.day = b.day :=
      Std.le_antisymm (day_le_of_le hab) (heq ▸ day_le_of_le hbc)
    simp only [le_iff, lt_iff, ← heq, ← hb, true_and] at hab hbc
    omega

/-- One month before a time is an earlier time, or the time itself at the start of the calendar. -/
theorem monthBefore_le (t : Timestamp) : t.monthBefore ≤ t := by
  unfold monthBefore
  cases h : t.day.monthBefore? with
  | none => exact le_refl t
  | some p => exact le_of_day_lt (Day.monthBefore?_lt h)

end Timestamp

end DocSearch
