import DocSearch.Proofs.Calendar.TimeOrder

/-!
# The windows of a dashboard search, run after run

`Description.runs` are the forms that a description takes in a series of runs.

* The windows leave no gap: whatever the clock does, a day between the start of the first window and
  the end of the last one lies in one of them (`Description.covered_of_first`, from
  `Description.covered_of_lastRun_lt`, by induction on the runs to come).
* If the clock does not go back, a window starts at the latest end of an earlier one that is not on
  the day of the run (`Description.StartsAfter`).  One run keeps this
  (`Description.startsAfter_advance`), so every series of runs does
  (`Description.startsAfter_runs`).

Both are stated for all series in `Description.windows_of_runs`.  The end before the first run is
the one that the search was saved with, or one month before the run if there is none
(`Description.lastRun`).
-/

namespace DocSearch.Description

/-- The search after each of a series of runs. -/
def runs (q : Description) : List Timestamp → List Description
  | [] => []
  | t :: times => q.advance t :: (q.advance t).runs times

/-- Whether the day `d` lies in the window. -/
def Covers (q : Description) (d : Day) : Prop :=
  ∃ first last, q.lastModifiedFrom = some first ∧ q.lastModifiedTo = some last ∧
    first.day ≤ d ∧ d ≤ last.day

/-- Every window ends at its run. -/
theorem advance_lastModifiedTo (q : Description) (t : Timestamp) :
    (q.advance t).lastModifiedTo = some t := by
  unfold advance
  split <;> rfl

theorem lastRun_of_lastModifiedTo {q : Description} {last : Timestamp}
    (h : q.lastModifiedTo = some last) (t : Timestamp) : q.lastRun t = last := by
  rw [lastRun, h, Option.getD_some]

/-- A run on a later day than the last one moves the start of the window. -/
theorem advance_lastModifiedFrom_of_lt {q : Description} {t : Timestamp}
    (h : (q.lastRun t).day < t.day) : (q.advance t).lastModifiedFrom = some (q.lastRun t) := by
  rw [advance, if_pos h]

/-- Any other run leaves the start alone. -/
theorem advance_lastModifiedFrom_of_le {q : Description} {t : Timestamp}
    (h : t.day ≤ (q.lastRun t).day) : (q.advance t).lastModifiedFrom = q.lastModifiedFrom := by
  rw [advance, if_neg h]

theorem map_lastModifiedTo_runs (q : Description) :
    ∀ times : List Timestamp, (q.runs times).map (·.lastModifiedTo) = times.map some
  | [] => rfl
  | t :: times => by
    rw [runs, List.map_cons, List.map_cons, advance_lastModifiedTo,
      map_lastModifiedTo_runs (q.advance t) times]

/-! ## No gap -/

/-- Behind the end of a window no day up to the last run is skipped.  The induction is on the runs
to come: the first of them that reaches the day opens its window where the one before ended. -/
theorem covered_of_lastRun_lt {d : Day} :
    ∀ {times : List Timestamp} {q : Description} {last final : Timestamp},
      q.lastModifiedTo = some last → last.day < d → times.getLast? = some final → d ≤ final.day →
      ∃ w ∈ q.runs times, w.Covers d
  | [], _, _, _, _, _, hfinal, _ => by cases hfinal
  | t :: times, q, last, final, hlast, hd, hfinal, hle => by
    by_cases hdt : d ≤ t.day
    · have hrun := lastRun_of_lastModifiedTo hlast t
      have hslide : (q.lastRun t).day < t.day := by
        rw [hrun]
        exact Std.lt_of_lt_of_le hd hdt
      refine ⟨q.advance t, .head _, last, t, ?_, advance_lastModifiedTo q t, Std.le_of_lt hd, hdt⟩
      rw [advance_lastModifiedFrom_of_lt hslide, hrun]
    -- The run falls short of the day, so it is not the last one.
    · have htd : t.day < d := Decidable.not_not.mp hdt
      cases times with
      | nil =>
        cases hfinal
        exact absurd hle hdt
      | cons u times =>
        rw [List.getLast?_cons_cons] at hfinal
        obtain ⟨w, hw, hcovers⟩ :=
          covered_of_lastRun_lt (advance_lastModifiedTo q t) htd hfinal hle
        exact ⟨w, .tail _ hw, hcovers⟩

/-- No day from the start of the first window up to the last run is skipped. -/
theorem covered_of_first {q : Description} {first start final : Timestamp}
    {later : List Timestamp} (hstart : (q.advance first).lastModifiedFrom = some start)
    (hfinal : (first :: later).getLast? = some final) {d : Day} (hsd : start.day ≤ d)
    (hdf : d ≤ final.day) : ∃ w ∈ q.runs (first :: later), w.Covers d := by
  by_cases hd : d ≤ first.day
  · exact ⟨q.advance first, .head _, start, first, hstart,
      advance_lastModifiedTo q first, hsd, hd⟩
  cases later with
  | nil =>
    cases hfinal
    exact absurd hdf hd
  | cons t later =>
    rw [List.getLast?_cons_cons] at hfinal
    obtain ⟨w, hw, hcovers⟩ := covered_of_lastRun_lt (advance_lastModifiedTo q first)
      (Decidable.not_not.mp hd) hfinal hdf
    exact ⟨w, .tail _ hw, hcovers⟩

/-! ## Where a window starts -/

/-- The last run is not after the `first` of a series if no window ends after it. -/
theorem lastRun_le {q : Description} {first : Timestamp}
    (notAfter : ∀ last, q.lastModifiedTo = some last → last ≤ first) :
    q.lastRun first ≤ first := by
  cases hto : q.lastModifiedTo with
  | none =>
    rw [lastRun, hto]
    exact first.monthBefore_le
  | some last =>
    rw [lastRun_of_lastModifiedTo hto]
    exact notAfter last hto

/-- `b` is the latest of some `times` that is on an earlier day than `t`. -/
def IsLatestBefore (times : List Timestamp) (t b : Timestamp) : Prop :=
  b ∈ times ∧ b.day < t.day ∧ ∀ c ∈ times, c.day < t.day → c ≤ b

/-- The start `s` of a window that ends at `t` is the latest of some `times` on an earlier day, or
`initial` if there is none. -/
def StartsAfter (times : List Timestamp) (initial : Option Timestamp) (t : Timestamp)
    (s : Option Timestamp) : Prop :=
  (∃ b, IsLatestBefore times t b ∧ s = some b) ∨ ((∀ c ∈ times, ¬ c.day < t.day) ∧ s = initial)

namespace StartsAfter

variable {times : List Timestamp} {initial s : Option Timestamp} {t u : Timestamp}

/-- Only the day of the end counts. -/
theorem of_day_eq (h : StartsAfter times initial t s) (hday : t.day = u.day) :
    StartsAfter times initial u s := by
  unfold StartsAfter IsLatestBefore at *
  rwa [← hday]

/-- A time that is not on an earlier day does not count. -/
theorem append (h : StartsAfter times initial t s) (hu : t.day ≤ u.day) :
    StartsAfter (times ++ [u]) initial t s := by
  rcases h with ⟨b, ⟨hmem, hlt, hmax⟩, rfl⟩ | ⟨hnone, rfl⟩
  · refine .inl ⟨b, ⟨List.mem_append_left _ hmem, hlt, ?_⟩, rfl⟩
    intro c hc hct
    rcases List.mem_append.mp hc with hc | hc
    · exact hmax c hc hct
    · rw [List.mem_singleton.mp hc] at hct
      exact absurd hct hu
  · refine .inr ⟨?_, rfl⟩
    intro c hc hct
    rcases List.mem_append.mp hc with hc | hc
    · exact hnone c hc hct
    · rw [List.mem_singleton.mp hc] at hct
      exact hu hct

end StartsAfter

/-- One run: if the window starts where it should for the day of the last run, it does so for the
day of the next one. -/
theorem startsAfter_advance {q : Description} {times : List Timestamp} {initial : Option Timestamp}
    {t : Timestamp} (mem : q.lastRun t ∈ times) (latest : ∀ c ∈ times, c ≤ q.lastRun t)
    (hle : q.lastRun t ≤ t) (h : StartsAfter times initial (q.lastRun t) q.lastModifiedFrom) :
    StartsAfter times initial t (q.advance t).lastModifiedFrom := by
  by_cases hday : (q.lastRun t).day < t.day
  · rw [advance_lastModifiedFrom_of_lt hday]
    exact .inl ⟨_, ⟨mem, hday, fun c hc _ => latest c hc⟩, rfl⟩
  · rw [advance_lastModifiedFrom_of_le hday]
    exact h.of_day_eq (Std.le_antisymm (Timestamp.day_le_of_le hle) hday)

/-- A series of runs; `past` are the ends of the windows before it, the last of them that of `q`.
The induction is on the runs to come and carries the start of the window of `q` along. -/
theorem startsAfter_runs {initial : Option Timestamp} :
    ∀ {times past : List Timestamp} {q : Description} {last : Timestamp},
      (∀ t ∈ times.head?, q.lastRun t = last) → last ∈ past → (∀ c ∈ past, c ≤ last) →
      (last :: times).Pairwise (· ≤ ·) → StartsAfter past initial last q.lastModifiedFrom →
      ∀ (i : Nat) (w : Description) (t : Timestamp), (q.runs times)[i]? = some w →
        times[i]? = some t → StartsAfter (past ++ times.take i) initial t w.lastModifiedFrom
  | [], _, _, _, _, _, _, _, _, i, _, _, _, ht => by simp at ht
  | t :: times, past, q, last, hrun, mem, latest, sorted, h, i, w, u, hw, hu => by
    have hlast : q.lastRun t = last := hrun t rfl
    have hlt := List.pairwise_cons.mp sorted
    have hle : last ≤ t := hlt.1 t (.head _)
    have hstart : StartsAfter past initial t (q.advance t).lastModifiedFrom := by
      refine startsAfter_advance ?_ ?_ ?_ ?_ <;> rw [hlast] <;> assumption
    cases i with
    | zero =>
      cases hw
      cases hu
      simpa using hstart
    | succ i =>
      -- The end of this window joins those before it, and none of them is later.
      have latest' : ∀ c ∈ past ++ [t], c ≤ t := by
        intro c hc
        rcases List.mem_append.mp hc with hc | hc
        · exact Timestamp.le_trans (latest c hc) hle
        · rw [List.mem_singleton.mp hc]
          exact Timestamp.le_refl t
      have hrest : StartsAfter (past ++ [t] ++ times.take i) initial u w.lastModifiedFrom :=
        startsAfter_runs (fun u _ => lastRun_of_lastModifiedTo (advance_lastModifiedTo q t) u)
          (List.mem_append_right _ (.head _)) latest' hlt.2
          (hstart.append (Std.le_refl _)) i w u hw hu
      simpa using hrest

/-- In a series of runs
* each window ends at its run;
* the windows leave out no day from the start of the first one to the last run;
* if the clock never goes back, each window starts at the latest earlier end that is not on the day
  of the run, the end before the first run being the initial one or one month before. -/
theorem windows_of_runs (q : Description) (first : Timestamp) (later : List Timestamp) :
    (q.runs (first :: later)).map (·.lastModifiedTo) = (first :: later).map some ∧
    (∀ start final, (q.advance first).lastModifiedFrom = some start →
      (first :: later).getLast? = some final → ∀ d : Day, start.day ≤ d → d ≤ final.day →
        ∃ w ∈ q.runs (first :: later), w.Covers d) ∧
    ((first :: later).Pairwise (· ≤ ·) → (∀ last, q.lastModifiedTo = some last → last ≤ first) →
      ∀ (i : Nat) (w : Description) (t : Timestamp), (q.runs (first :: later))[i]? = some w →
        (first :: later)[i]? = some t →
        StartsAfter (q.lastRun first :: (first :: later).take i) q.lastModifiedFrom t
          w.lastModifiedFrom) := by
  refine ⟨map_lastModifiedTo_runs q _, ?_, ?_⟩
  · intro start final hstart hfinal d hsd hdf
    exact covered_of_first hstart hfinal hsd hdf
  · intro sorted notAfter i w t hw ht
    have hle := lastRun_le notAfter
    have hsorted : (q.lastRun first :: first :: later).Pairwise (· ≤ ·) := by
      refine List.pairwise_cons.mpr ⟨?_, sorted⟩
      intro u hu
      rcases List.mem_cons.mp hu with rfl | hu
      · exact hle
      · exact Timestamp.le_trans hle ((List.pairwise_cons.mp sorted).1 u hu)
    -- Before the first run there is one end only, and it is on its own day.
    have hinitial : StartsAfter [q.lastRun first] q.lastModifiedFrom (q.lastRun first)
        q.lastModifiedFrom := by
      refine .inr ⟨?_, rfl⟩
      intro c hc
      rw [List.mem_singleton.mp hc]
      exact Std.le_refl (_ : Day)
    refine startsAfter_runs ?_ (.head _) ?_ hsorted hinitial i w t hw ht
    · intro u hu
      cases hu
      rfl
    · intro c hc
      rw [List.mem_singleton.mp hc]
      exact Timestamp.le_refl _

/-- Nine o'clock on the day `d`. -/
def nineOn (d : Day) : Timestamp := ⟨d, 32400, 0, by decide⟩

/-- Two days after the last of March, behind a second run on that day. -/
def laterRuns : List Timestamp :=
  [⟨⟨2024, 3, 31, by decide⟩, 61200, 0, by decide⟩, nineOn ⟨2024, 4, 2, by decide⟩]

/-- The first window opens at the end of February, the first of April is not skipped, and the third
window starts where the second one ended. -/
theorem windows_of_laterRuns :
    let runs := documents.runs (nineOn ⟨2024, 3, 31, by decide⟩ :: laterRuns)
    (∃ w ∈ runs, w.Covers ⟨2024, 4, 1, by decide⟩) ∧
    ∀ w ∈ runs[2]?, StartsAfter (nineOn ⟨2024, 2, 29, by decide⟩ ::
        nineOn ⟨2024, 3, 31, by decide⟩ :: laterRuns.take 1) none
      (nineOn ⟨2024, 4, 2, by decide⟩) w.lastModifiedFrom := by
  obtain ⟨_, covers, starts⟩ :=
    windows_of_runs documents (nineOn ⟨2024, 3, 31, by decide⟩) laterRuns
  refine ⟨?_, ?_⟩
  · exact covers (nineOn ⟨2024, 2, 29, by decide⟩) (nineOn ⟨2024, 4, 2, by decide⟩)
      (by decide) (by decide) _ (by decide) (by decide)
  · intro w hw
    exact starts (by decide) (by decide) 2 w _ hw (by decide)

end DocSearch.Description
