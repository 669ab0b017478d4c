import DocSearch.Proofs.Calendar.WrittenDay
import DocSearch.Proofs.Index.TermOrder
import DocSearch.Proofs.Query.Narrowing
import DocSearch.Proofs.Query.PropertyFilters

/-!
# The filter on the last change

The index keeps the day of the last change by its key and looks for it in the order of bytes.

* The bytes of keys are ordered as the days, in the years of four places (`Day.bytes_key_lt_iff`).
* So the clause for two bounds admits what was changed on a day between theirs
  (`Description.pass_lastModifiedClauses_iff`).
* Whatever else is asked for, bounds narrow a search to the documents that this clause admits, and
  leave folders and mails alone (`Description.finds_iff_atAnyTime`).

These are put together in `Description.lastModified_finds_iff`.  The bounds are days of four-place
years, as their spellings are; the last change of a document may lie in any year.
-/

namespace DocSearch

/-- The bytes of the keys of days are ordered as the days. -/
theorem Day.bytes_key_lt_iff {a b : Day} (ha : a.HasFourPlaceYear) (hb : b.HasFourPlaceYear) :
    Text.bytes a.key < Text.bytes b.key ↔ a < b :=
  Text.bytes_lt_bytes_iff.trans (key_lt_key_iff ha hb)

namespace Description

variable {q : Description} {schema : Schema} {scope : Scope} {e : Entity}

/-- The same search without bounds for the last change. -/
def atAnyTime (q : Description) : Description :=
  { q with lastModifiedFrom := none, lastModifiedTo := none }

/-- The clauses for the last change, by domain. -/
def lastModifiedClausesFor (q : Description) : Domain → List Clause
  | .document => q.lastModifiedClauses
  | .folder | .mail => []

/-- The bounds add these clauses to what is asked of each domain, and nothing else (`Narrows`). -/
theorem narrows_atAnyTime (q : Description) (schema : Schema) (scope : Scope) :
    Narrows q q.atAnyTime schema scope q.lastModifiedClausesFor where
  domains := rfl
  own := by
    intro d c
    cases d with
    | document =>
      have hnone : q.atAnyTime.lastModifiedClauses = [] := rfl
      rw [ownClauses, ownClauses, documentClauses, documentClauses, hnone, List.append_nil]
      exact List.mem_append
    | folder => exact (or_iff_left List.not_mem_nil).symm
    | mail => exact (or_iff_left List.not_mem_nil).symm
  common := rfl

theorem patterns_lastModifiedClausesFor {d : Domain} {c : Clause}
    (hc : c ∈ q.lastModifiedClausesFor d) :
    c.condition.patterns = [] := by
  cases d with
  | document =>
    change c ∈ q.lastModifiedClauses at hc
    unfold lastModifiedClauses at hc
    split at hc
    · rw [List.mem_singleton.mp hc]
      exact Clause.patterns_range _ _ _
    · cases hc
  | folder => cases hc
  | mail => cases hc

/-- Bounds narrow what is found to what passes the clauses for them. -/
theorem finds_iff_atAnyTime {i : Index} {later : List Change} (others : ∀ c ∈ later, c.id ≠ e.id)
    {d : Domain}
    (hd : d.Covers e.kind) : (i.storing e later).Finds (q.compile schema scope) e.id ↔
      (i.storing e later).Finds (q.atAnyTime.compile schema scope) e.id ∧
        Pass Phrase.occurs e (q.lastModifiedClausesFor d) := by
  refine (narrows_atAnyTime q schema scope).finds_iff others hd fun d c hc p hp => ?_
  rw [patterns_lastModifiedClausesFor hc] at hp
  cases hp

/-- The clause for two bounds admits what was changed on a day between those of `first` and
`last`. -/
theorem pass_lastModifiedClauses_iff {has : Phrase → List Token → Bool} {first last : Timestamp}
    (hfrom : q.lastModifiedFrom = some first) (hto : q.lastModifiedTo = some last)
    (hfirst : first.day.HasFourPlaceYear) (hlast : last.day.HasFourPlaceYear) :
    Pass has e q.lastModifiedClauses ↔ first.day ≤ e.lastModified.day ∧
    e.lastModified.day ≤ last.day := by
  rw [pass_lastModifiedClauses, ← Day.key_between_iff hfirst hlast]
  constructor
  · intro h
    exact h first last hfrom hto
  · rintro h a b ha hb
    obtain rfl := Option.some.inj (ha.symm.trans hfrom)
    obtain rfl := Option.some.inj (hb.symm.trans hto)
    exact h

/-- The days of last changes, and the filter on them:
* In the years of four places the keys of days are ordered by their bytes as the days are, and a day
  is read from its key and from its text with dashes.
* So the filter for two bounds of these years, in whatever order, admits an entity iff the day of
  its last change, of whatever year, lies between those of the bounds.
* With it a search finds a document iff the search without it (`atAnyTime`) does and the day lies
  so. -/
theorem lastModified_finds_iff :
    (∀ a b : Day, a.HasFourPlaceYear → b.HasFourPlaceYear →
      (Text.bytes a.key < Text.bytes b.key ↔ a < b) ∧
      Day.read? a.key = some a ∧ Day.read? a.iso = some a) ∧
    ∀ (q : Description) (first last : Timestamp), q.lastModifiedFrom = some first →
      q.lastModifiedTo = some last →
      first.day.HasFourPlaceYear → last.day.HasFourPlaceYear → ∀ e : Entity,
      (Pass Phrase.occurs e q.lastModifiedClauses ↔
        first.day ≤ e.lastModified.day ∧ e.lastModified.day ≤ last.day) ∧
      (Domain.document.Covers e.kind →
        ∀ (schema : Schema) (scope : Scope) (i : Index) (later : List Change),
        (∀ c ∈ later, c.id ≠ e.id) → ((i.storing e later).Finds (q.compile schema scope) e.id ↔
          (i.storing e later).Finds (q.atAnyTime.compile schema scope) e.id ∧
            first.day ≤ e.lastModified.day ∧ e.lastModified.day ≤ last.day)) := by
  refine ⟨fun a b ha hb => ⟨Day.bytes_key_lt_iff ha hb, Day.read?_key ha, Day.read?_iso a⟩, ?_⟩
  intro q first last hfrom hto hfirst hlast e
  have hpass : Pass Phrase.occurs e q.lastModifiedClauses ↔
      first.day ≤ e.lastModified.day ∧ e.lastModified.day ≤ last.day :=
    pass_lastModifiedClauses_iff hfrom hto hfirst hlast
  refine ⟨hpass, fun hdocument schema scope i later others => ?_⟩
  rw [finds_iff_atAnyTime others hdocument]
  exact and_congr_right fun _ => hpass

/-- The last second of the day `d`. -/
def endOf (d : Day) : Timestamp := ⟨d, 86399, 0, by decide⟩

/-- The `redReport`, changed on a day. -/
def reportOf (changed : Day) : Entity := { redReport with lastModified := endOf changed }

/-- The search for red documents. -/
def redDocuments : Description := { documents with properties := .ofList [("color", "red")] }

/-- The search for red documents that were changed between two days. -/
def redDocumentsOf (first last : Day) : Description :=
  { redDocuments with lastModifiedFrom := some (endOf first), lastModifiedTo := some (endOf last) }

/-- An index that keeps nothing but a report, `changed` on a day, finds it between two days. -/
def ReportFoundBetween (first last changed : Day) : Prop :=
  ((Index.empty 100).storing (reportOf changed) []).Finds
    ((redDocumentsOf first last).compile colorSchema .empty)
    (reportOf changed).id

/-- The last day of a February is found at the end of a range, but not if the ends of the range are
exchanged.  A day of a year with five places is not found in the longest range. -/
theorem lastModified_finds_leapDay :
    Text.bytes "20240229" < Text.bytes "20240301" ∧
    Day.read? "20240229" = some ⟨2024, 2, 29, by decide⟩ ∧
    ReportFoundBetween ⟨2024, 1, 31, by decide⟩ ⟨2024, 2, 29, by decide⟩ ⟨2024, 2, 29, by decide⟩ ∧
    ¬ ReportFoundBetween ⟨2024, 2, 29, by decide⟩ ⟨2024, 1, 31, by decide⟩
      ⟨2024, 2, 29, by decide⟩ ∧
    ¬ ReportFoundBetween ⟨0, 1, 1, by decide⟩ ⟨9999, 12, 31, by decide⟩
    ⟨12024, 2, 29, by decide⟩ := by
  obtain ⟨hkeys, hfinds⟩ := lastModified_finds_iff
  have hleap : Day.key ⟨2024, 2, 29, by decide⟩ = "20240229" := by decide +kernel
  have hnext : Day.key ⟨2024, 3, 1, by decide⟩ = "20240301" := by decide +kernel
  obtain ⟨horder, hread, _⟩ :=
    hkeys ⟨2024, 2, 29, by decide⟩ ⟨2024, 3, 1, by decide⟩ (by decide) (by decide)
  rw [hleap] at horder hread
  rw [hnext] at horder
  have hfound : ∀ first last changed : Day, first.HasFourPlaceYear → last.HasFourPlaceYear →
      (ReportFoundBetween first last changed ↔
        ((Index.empty 100).storing (reportOf changed) []).Finds
        (redDocuments.compile colorSchema .empty)
          (reportOf changed).id ∧ first ≤ changed ∧ changed ≤ last) := by
    intro first last changed hfirst hlast
    exact (hfinds (redDocumentsOf first last) _ _ rfl rfl hfirst hlast (reportOf changed)).2
      (.inl rfl) colorSchema .empty
      (.empty 100) [] (List.forall_mem_nil _)
  refine ⟨horder.mpr (by decide), hread, ?_, fun h => ?_, fun h => ?_⟩
  · exact (hfound _ _ _ (by decide) (by decide)).mpr ⟨by decide +kernel, by decide, by decide⟩
  · exact absurd ((hfound _ _ _ (by decide) (by decide)).mp h).2 (by decide)
  · exact absurd ((hfound _ _ _ (by decide) (by decide)).mp h).2 (by decide)

end Description

end DocSearch
