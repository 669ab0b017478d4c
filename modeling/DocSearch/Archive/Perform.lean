import DocSearch.Archive.Find
import DocSearch.Saved.Call

/-!
# Performing calls

A `Call` waits for one statement at a time, and here the statements are done.  `Archive.step` takes
the one that a call waits for, `Archive.perform` goes on until the call has answered.  Other calls
may be stepped in between; `perform` is the run without interference, and it does not matter at
which step one begins to count it (`Archive.perform_step`).

Saving is a single statement and needs no call: `Archive.save` inserts the row of a new search.
-/

namespace DocSearch.Archive

variable {α : Type}

/-- Writes a row by `w` if it has the revision `expected`, and says whether it had. -/
def swap (s : Archive) (id : String) (expected : Int) (w : RowWrite) (now : Timestamp) :
    Bool × Archive :=
  match s.saved.swap? id expected w now with
  | some saved => (true, { s with saved })
  | none => (false, s)

/-- Removes the row `id`, and the visits of `user` from `source` if one is given. -/
def erase (s : Archive) (id user : String) (source : Option String) : Archive :=
  { s with saved := s.saved.erase id user source }

/-- A call after the statement it waits for; `now` is the time of writes. -/
def step (now : Timestamp) : Call α → Archive → Call α × Archive
  | .done answer, s => (.done answer, s)
  | .read id next, s => (next (s.saved.row? id), s)
  | .swap id expected w next, s => (next (s.swap id expected w now).1, (s.swap id expected w now).2)
  | .erase id user source next, s => (next, s.erase id user source)
  | .search q user next, s => (next (s.find q user).1, (s.find q user).2)

/-- The answer of a call that nothing interferes with, and the archive as it leaves it. -/
def perform (now : Timestamp) : Call α → Archive → Except Failure α × Archive
  | .done answer, s => (answer, s)
  | .read id next, s => perform now (next (s.saved.row? id)) s
  | .swap id expected w next, s =>
    perform now (next (s.swap id expected w now).1) (s.swap id expected w now).2
  | .erase id user source next, s => perform now next (s.erase id user source)
  | .search q user next, s => perform now (next (s.find q user).1) (s.find q user).2

/-- A call that has been stepped once goes on to the answer that it would have had. -/
theorem perform_step (now : Timestamp) (c : Call α) (s : Archive) :
    perform now (step now c s).1 (step now c s).2 = perform now c s := by
  cases c <;> rfl

/-- Saves a new search under `id`, which no row of the store has yet. -/
def save (s : Archive) (id user : String) (request : NewSearch) (now : Timestamp) :
    SavedSearch × Archive :=
  ({ id, user, name := request.name, query := request.query, isDashboard := request.isDashboard,
     revision := 0, createdAt := now, updatedAt := now },
   { s with saved := s.saved.insert (.ofNew id user request now) })

end DocSearch.Archive
