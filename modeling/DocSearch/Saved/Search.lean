import DocSearch.Failure
import DocSearch.Query.Encoding

/-!
# Saved searches

A `SavedSearch` is a description that a user keeps under a name.  It is stored as a `SavedRow`,
whose query and times are texts; they are read again each time the row is used, so `SavedRow.search`
fails on a row that was damaged.

The texts are those of `Description.write` and `Timestamp.fixedText`.  The latter has room for years
of four places only: a time outside the years 0 to 9999 is stored, but it is not read again.
-/

namespace DocSearch

/-- A search that a user keeps. -/
structure SavedSearch where
  id : String
  user : String
  name : String
  query : Description
  /-- Whether it is run on a schedule, with a window that moves. -/
  isDashboard : Bool
  /-- How often it was written since it was saved. -/
  revision : Nat
  createdAt : Timestamp
  updatedAt : Timestamp
deriving DecidableEq

/-- What is given to save a search. -/
structure NewSearch where
  name : String
  query : Description
  isDashboard : Bool
deriving DecidableEq

/-- What an owner changes about a search; what is missing stays. -/
structure SearchEdit where
  name : Option String
  query : Option Description
  isDashboard : Option Bool
deriving DecidableEq

namespace NewSearch

/-- The request that `v` states; `is_dashboard` may be left out. -/
def ofValue? (v : Value) : Option NewSearch := do
  let r ← Record.of? ["name", "query", "is_dashboard"] v
  pure {
    name := ← r.required "name" Value.asText?
    query := ← r.required "query" Description.ofValue?
    isDashboard := ← r.withDefault "is_dashboard" false Value.asBool? }

end NewSearch

namespace SearchEdit

/-- The edit that `v` states, each part of which may be left out. -/
def ofValue? (v : Value) : Option SearchEdit := do
  let r ← Record.of? ["name", "query", "is_dashboard"] v
  pure {
    name := ← r.nullable "name" Value.asText?
    query := ← r.nullable "query" Description.ofValue?
    isDashboard := ← r.nullable "is_dashboard" Value.asBool? }

end SearchEdit

/-- A saved search as it is stored. -/
structure SavedRow where
  id : String
  user : String
  name : String
  query : String
  isDashboard : Bool
  revision : Nat
  createdAt : String
  updatedAt : String
deriving DecidableEq

namespace SavedRow

/-- The time that the stored `text` states. -/
def time (text : String) : Except Failure Timestamp :=
  match Timestamp.readFixed? text with
  | some t => .ok t
  | none => .error (.invalidTimestamp text)

/-- The query that the stored `text` states. -/
def description (text : String) : Except Failure Description :=
  match Description.read? text with
  | some q => .ok q
  | none => .error (.json "stored query cannot be read")

/-- The search that the row `r` holds, if its texts can be read. -/
def search (r : SavedRow) : Except Failure SavedSearch := do
  let query ← description r.query
  let createdAt ← time r.createdAt
  let updatedAt ← time r.updatedAt
  pure { id := r.id, user := r.user, name := r.name, query, isDashboard := r.isDashboard,
         revision := r.revision, createdAt, updatedAt }

/-- The row of a new search, saved at `now`. -/
def ofNew (id user : String) (request : NewSearch) (now : Timestamp) : SavedRow where
  id := id
  user := user
  name := request.name
  query := request.query.write
  isDashboard := request.isDashboard
  revision := 0
  createdAt := now.fixedText
  updatedAt := now.fixedText

end SavedRow

end DocSearch
