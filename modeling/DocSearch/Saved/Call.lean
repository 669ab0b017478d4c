import DocSearch.Saved.Store
import DocSearch.Search.Results

/-!
# Calls on saved searches

Operations on a saved search take several statements of the store, between which other operations
may take theirs.  A `Call` is such an operation in progress: it has ended with an answer, or it
waits for the result of one statement, or of a search, and says how it goes on with it. `Call.get`,
`Call.edit`, `Call.replaceQuery`, `Call.delete` and `Call.runDashboard` are the calls there are.

Whoever writes a row has read it before and names the revision that was read.  If the row has
another one by then, nothing is written; an edit fails, and a dashboard run starts over, at most
twice (`Call.runWithin`).  Deleting names no revision: the row goes, whatever it has become, and the
visits that go with it are those of the name that was read.
-/

namespace DocSearch

/-- An operation in progress, which will answer with an `α` or fail. -/
inductive Call (α : Type) where
  | done (answer : Except Failure α)
  /-- asks for the row `id` -/
  | read (id : String) (next : Option SavedRow → Call α)
  /-- writes a row by `w` if it has the revision `expected`, and is told whether it had -/
  | swap (id : String) (expected : Int) (w : RowWrite) (next : Bool → Call α)
  /-- removes a row and the visits of its user from `source`, if one is given -/
  | erase (id user : String) (source : Option String) (next : Call α)
  /-- asks for the results of the search `q` -/
  | search (q : Description) (user : String) (next : Except Failure ResultPage → Call α)

namespace Call

variable {α β : Type}

/-- The call that has failed with `e`. -/
def fail (e : Failure) : Call α := .done (.error e)

/-- The call that has succeeded with `a`. -/
def succeed (a : α) : Call α := .done (.ok a)

/-- The call that goes on, by `next`, with the answer of another one. -/
def andThen (next : Except Failure α → Call β) : Call α → Call β
  | .done answer => next answer
  | .read id k => .read id fun row => (k row).andThen next
  | .swap id expected w k => .swap id expected w fun swapped => (k swapped).andThen next
  | .erase id user source k => .erase id user source (k.andThen next)
  | .search q user k => .search q user fun page => (k page).andThen next

/-- Reads the search `id`, which must exist, or else the call fails as `missing` says. -/
def load (id : String) (missing : Failure) (next : SavedSearch → Call α) : Call α :=
  .read id fun
    | none => fail missing
    | some row =>
      match row.search with
      | .ok s => next s
      | .error e => fail e

/-- Reads the search `id`, which must belong to `user`, or else the call fails as `otherwise`
says. -/
def loadOwned (id user : String) (otherwise : Failure) (next : SavedSearch → Call α) : Call α :=
  load id (.searchNotFound id) fun s => if s.user = user then next s else fail otherwise

/-- Changes the search `id` by `e` for its owner. -/
def edit (id user : String) (e : SearchEdit) : Call SavedSearch :=
  loadOwned id user .notOwner fun s =>
    .swap id s.revision
      ⟨some (e.name.getD s.name), (e.query.getD s.query).write,
        some (e.isDashboard.getD s.isDashboard)⟩ fun
        | true => load id .searchDisappeared succeed
        | false => fail (.changedSince id s.revision)

/-- Replaces the query of the search `id`, if it has the revision `expected`, whoever asks. -/
def replaceQuery (id : String) (expected : Int) (q : Description) : Call SavedSearch :=
  .swap id expected (.ofQuery q) fun
    | true => load id (.searchNotFound id) succeed
    | false => load id (.searchNotFound id) fun _ => fail (.changedSince id expected)

/-- Deletes the search `id` for its owner; with a dashboard search go the visits from it. -/
def delete (id user : String) : Call Unit :=
  loadOwned id user .notOwner fun s =>
    .erase id user (if s.isDashboard then some s.name else none) (succeed ())

/-- The search `id` of `user`. -/
def get (id user : String) : Call SavedSearch := loadOwned id user (.otherOwner id) succeed

/-- Moves the window of a dashboard search to `now`, runs it and writes it back.  If it was written
meanwhile, the call goes on with `again`. -/
def attempt (id user : String) (now : Timestamp) (again : Failure → Call ResultPage) :
    Call ResultPage :=
  loadOwned id user (.otherOwner id) fun s =>
    if s.isDashboard then
      .search (s.query.advance now) user fun
        | .error e => fail e
        | .ok page =>
          (replaceQuery id s.revision (s.query.advance now)).andThen fun
            | .ok _ => succeed page
            | .error (.conflict detail) => again (.conflict detail)
            | .error e => fail e
    else fail (.notDashboard id)

/-- Runs a dashboard search, and at most `retries` times again. -/
def runWithin (id user : String) (now : Timestamp) : (retries : Nat) → Call ResultPage
  | 0 => attempt id user now fail
  | retries + 1 => attempt id user now fun _ => runWithin id user now retries

/-- Runs the dashboard search `id`, three times at most. -/
def runDashboard (id user : String) (now : Timestamp) : Call ResultPage := runWithin id user now 2

end Call

end DocSearch
