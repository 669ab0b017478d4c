import DocSearch.Saved.Search

/-!
# The store of saved searches

The store holds the rows of all saved searches, in the order in which they were saved, and which
nodes each user opened from each dashboard search, with the time at which that was last.  A `Visit`
is the key of such a row (`VisitRow`), so that a visit that is made again is not listed twice; its
time is stored as a text and read again when visits are listed (`SavedStore.visited`), as the times
of searches are.

The statements of the store are atomic.  `SavedStore.swap?` writes a row only if it still has the
revision that the writer read, and every such write raises the revision by one; `SavedStore.erase`
removes rows; `SavedStore.insert` and `SavedStore.visit` add some.  A visit is tied to a search by
the name that the search had, not by its identifier, so none of the writes keeps the two together.

What a statement does to the row of an identifier is stated at the end (`SavedStore.row?_modify`,
`SavedStore.row?_erase`).
-/

namespace DocSearch

/-- That `user` opens `node` from the dashboard search of the name `source`. -/
structure Visit where
  user : String
  source : String
  node : String
deriving DecidableEq

/-- A visit as it is stored, with the time at which it was made last. -/
structure VisitRow where
  visit : Visit
  visitedAt : String
deriving DecidableEq

/-- A visit as it is listed, its time being read. -/
structure VisitedNode where
  visit : Visit
  visitedAt : Timestamp
deriving DecidableEq

namespace VisitRow

/-- The row of the visit `v` that is made `now`. -/
def ofNew (v : Visit) (now : Timestamp) : VisitRow := ⟨v, now.fixedText⟩

/-- The visit that the row `r` holds, if its time can be read. -/
def visited (r : VisitRow) : Except Failure VisitedNode :=
  (SavedRow.time r.visitedAt).map (⟨r.visit, ·⟩)

end VisitRow

/-- What a write sets in a row; what is missing stays. -/
structure RowWrite where
  name : Option String
  query : String
  isDashboard : Option Bool
deriving DecidableEq

/-- The write that sets the query `q` alone. -/
def RowWrite.ofQuery (q : Description) : RowWrite := ⟨none, q.write, none⟩

/-- The row `r` after a write; `now` is the time of the write. -/
def RowWrite.apply (w : RowWrite) (now : Timestamp) (r : SavedRow) : SavedRow :=
  { r with
    name := w.name.getD r.name
    query := w.query
    isDashboard := w.isDashboard.getD r.isDashboard
    revision := r.revision + 1
    updatedAt := now.fixedText }

/-- The columns of a row that are stored as texts. -/
inductive TextColumn where
  | query
  | createdAt
  | updatedAt
deriving DecidableEq, Repr

/-- The row `r` with the text of a column replaced. -/
def TextColumn.set (c : TextColumn) (text : String) (r : SavedRow) : SavedRow :=
  match c with
  | query => { r with query := text }
  | createdAt => { r with createdAt := text }
  | updatedAt => { r with updatedAt := text }

/-- The rows of saved searches and those of visits, of which there is one for each visit. -/
structure SavedStore where
  rows : List SavedRow
  visitRows : List VisitRow
deriving DecidableEq

namespace SavedStore

/-- The store without rows. -/
def empty : SavedStore := ⟨[], []⟩

instance : Inhabited SavedStore := ⟨empty⟩

/-- The visits that are remembered, whenever they were made. -/
def visits (s : SavedStore) : List Visit := s.visitRows.map (·.visit)

/-- The row of the identifier `id`. -/
def row? (s : SavedStore) (id : String) : Option SavedRow := s.rows.find? (·.id = id)

/-- The store with the row `r` added, behind all others. -/
def insert (s : SavedStore) (r : SavedRow) : SavedStore := { s with rows := s.rows ++ [r] }

/-- The store with every row of `id` changed. -/
def modify (s : SavedStore) (id : String) (change : SavedRow → SavedRow) : SavedStore :=
  { s with rows := s.rows.map fun r => if r.id = id then change r else r }

/-- Writes the row `id` by `w` if it has the revision `expected`. -/
def swap? (s : SavedStore) (id : String) (expected : Int) (w : RowWrite) (now : Timestamp) :
    Option SavedStore :=
  match s.row? id with
  | some r => if (r.revision : Int) = expected then some (s.modify id (w.apply now)) else none
  | none => none

/-- Removes the row `id` and, if a `source` is given, the visits of `user` from there. -/
def erase (s : SavedStore) (id user : String) (source : Option String) : SavedStore where
  rows := s.rows.filter (·.id ≠ id)
  visitRows := match source with
    | some name => s.visitRows.filter fun r => ¬ (r.visit.user = user ∧ r.visit.source = name)
    | none => s.visitRows

/-- Remembers the visit `v`, and of one that is made again the time `now`. -/
def visit (s : SavedStore) (v : Visit) (now : Timestamp) : SavedStore :=
  if v ∈ s.visits then
    { s with visitRows := s.visitRows.map fun r => if r.visit = v then .ofNew v now else r }
  else { s with visitRows := s.visitRows ++ [.ofNew v now] }

/-- The visits of `user` from `source`, ordered by node; one row that cannot be read makes all
fail. -/
def visited (s : SavedStore) (user source : String) : Except Failure (List VisitedNode) :=
  ((s.visitRows.filter fun r => r.visit.user = user ∧ r.visit.source = source).mergeSort fun a b =>
    ¬ b.visit.node < a.visit.node).mapM VisitRow.visited

/-- Overwrites the `text` of a column, if the row exists. -/
def overwrite (s : SavedStore) (id : String) (column : TextColumn) (text : String) :
    Option SavedStore :=
  (s.row? id).map fun _ => s.modify id (column.set text)

/-- Whether the row `a` comes before `b` in a list, by name and then by the time it was saved. -/
def isBefore (a b : SavedRow) : Bool :=
  if a.name = b.name then ¬ b.createdAt < a.createdAt else a.name < b.name

/-- The searches in the rows of `user` that are `asked` for, in the order of `isBefore`. -/
def list (s : SavedStore) (user : String) (asked : SavedRow → Bool) :
    Except Failure (List SavedSearch) :=
  ((s.rows.filter fun r => r.user = user ∧ asked r).mergeSort isBefore).mapM SavedRow.search

/-- The searches of `user`. -/
def searches (s : SavedStore) (user : String) : Except Failure (List SavedSearch) :=
  s.list user fun _ => true

/-- The dashboard searches of `user`. -/
def dashboards (s : SavedStore) (user : String) : Except Failure (List SavedSearch) :=
  s.list user (·.isDashboard)

/-- The search of the identifier `id`, if there is one and its row can be read. -/
def search? (s : SavedStore) (id : String) : Except Failure (Option SavedSearch) :=
  match s.row? id with
  | some r => r.search.map some
  | none => .ok none

/-! ## What a statement does to rows -/

/-- What is found under `x` after every row of `id` was changed: the row that was found before,
changed if it is that of `id`. -/
theorem find?_map_if (id x : String) {change : SavedRow → SavedRow}
    (same : ∀ r, (change r).id = r.id) :
    ∀ rows : List SavedRow,
      (rows.map fun r => if r.id = id then change r else r).find? (·.id = x) =
        (rows.find? (·.id = x)).map fun r => if r.id = id then change r else r
  | [] => rfl
  | r :: rows => by
    have hid : (if r.id = id then change r else r).id = r.id := by
      split
      · exact same r
      · rfl
    have ih := find?_map_if id x same rows
    simp only [List.map_cons, List.find?_cons, hid]
    split
    · rfl
    · exact ih

/-- A row that is found under `id` has this identifier. -/
theorem id_of_row? {s : SavedStore} {id : String} {r : SavedRow} (h : s.row? id = some r) :
    r.id = id := by
  simpa using List.find?_some h

/-- A change of one row, which keeps its identifier, is seen under that identifier only. -/
theorem row?_modify {s : SavedStore} {id x : String} {change : SavedRow → SavedRow}
    (same : ∀ r, (change r).id = r.id) :
    (s.modify id change).row? x = if x = id then (s.row? x).map change else s.row? x := by
  have h := find?_map_if id x same s.rows
  simp only [row?, modify, h]
  cases hr : s.rows.find? (·.id = x) with
  | none => simp
  | some r =>
    have hx : r.id = x := by simpa using List.find?_some hr
    by_cases hxi : x = id <;> simp [hx, hxi]

/-- After `erase` nothing is found under `id`, and what was found elsewhere still is. -/
theorem row?_erase {s : SavedStore} {id user x : String} {source : Option String} :
    (s.erase id user source).row? x = if x = id then none else s.row? x := by
  by_cases h : x = id
  · simp [row?, erase, h, List.find?_filter]
  · have hx : ∀ r : SavedRow, (r.id = x) → r.id ≠ id := fun r hr hid => h (hr ▸ hid)
    simp only [row?, erase, List.find?_filter, if_neg h]
    congr 1
    funext r
    by_cases hr : r.id = x
    · simp [hr, h]
    · simp [hr]

/-- A visit is remembered when it is made, and those that were before still are. -/
theorem mem_visits_visit_iff {s : SavedStore} {v w : Visit} {now : Timestamp} :
    w ∈ (s.visit v now).visits ↔ w ∈ s.visits ∨ w = v := by
  by_cases hv : v ∈ s.visits
  · have hsame : (s.visit v now).visits = s.visits := by
      rw [visit, if_pos hv, visits, List.map_map]
      refine List.map_congr_left fun r _ => ?_
      rw [Function.comp_apply]
      split
      · rename_i heq
        exact heq.symm
      · rfl
    rw [hsame]
    exact (or_iff_left_of_imp fun heq => heq ▸ hv).symm
  · rw [visit, if_neg hv, visits, List.map_append, List.mem_append]
    exact or_congr_right List.mem_singleton

/-- A write takes place iff the row has the revision `expected`; then it is `RowWrite.apply`. -/
theorem swap?_eq_some_iff {s t : SavedStore} {id : String} {expected : Int} {w : RowWrite}
    {now : Timestamp} : s.swap? id expected w now = some t ↔
      (∃ r, s.row? id = some r ∧ (r.revision : Int) = expected) ∧
      t = s.modify id (w.apply now) := by
  unfold swap?
  cases h : s.row? id with
  | none => simp
  | some r =>
    by_cases hr : (r.revision : Int) = expected
    · simp [hr, eq_comm]
    · simp [hr]

end SavedStore

end DocSearch
