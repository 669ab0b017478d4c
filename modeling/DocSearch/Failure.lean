/-!
# Failures

Why an operation did not answer.  All but one of the `Failure`s are given back to the caller.  Each
of these has a kind and a detail:

* `Failure.message` is the sentence shown for it,
* `Failure.isRetryable` says whether the same operation may succeed later,
* `Failure.exitCode` is what a command that comes to it exits with.

`Failure.panic` is the one that nobody is given: the program stops in the middle of the operation,
because a computation left the numbers that it works with.  It goes past every caller as the others
do, but it is an outcome of its own and no error of any kind, and `Failure.exitCode` sets it apart.

The details that the operations give are stated once, behind the type (`Failure.searchNotFound` and
so on), so that a theorem about a failure names it rather than its text.
-/

namespace DocSearch

/-- Why a property schema was refused; `SchemaFault.detail` is the fault in words. -/
inductive SchemaFault where
  /-- The text is no TOML document of the expected form. -/
  | unreadable (detail : String)
  | groupWithoutName
  | fieldWithoutName (group : String)
  | duplicateField (name : String)
deriving DecidableEq, Repr

namespace SchemaFault

/-- The fault in words; `Failure.message` puts `Schema parse error: ` in front. -/
def detail : SchemaFault → String
  | unreadable detail => detail
  | groupWithoutName => "group without a name"
  | fieldWithoutName group => "field without a name in group " ++ group
  | duplicateField name => "duplicate field name: " ++ name

end SchemaFault

/-- Why an operation did not answer: a kind and its detail, or `panic`. -/
inductive Failure where
  /-- The program stopped; this is no error that a caller is given. -/
  | panic
  | schema (fault : SchemaFault)
  | pathNotFound (path : String)
  | index (detail : String)
  | parse (detail : String)
  | repository (detail : String)
  | notFound (detail : String)
  | unauthorized (detail : String)
  | invalidRequest (detail : String)
  | conflict (detail : String)
  | config (detail : String)
  | io (detail : String)
  | database (detail : String)
  | json (detail : String)
deriving DecidableEq, Repr

namespace Failure

/-- The sentence shown for a failure.  That of `panic` is the runtime's own, of which only the word
`panic` is kept. -/
def message : Failure → String
  | panic => "panic"
  | schema fault => "Schema parse error: " ++ fault.detail
  | pathNotFound path => "Path not found: " ++ path
  | index detail => "Index error: " ++ detail
  | parse detail => "Parse error: " ++ detail
  | repository detail => "Repository error: " ++ detail
  | notFound detail => "Resource not found: " ++ detail
  | unauthorized detail => "Unauthorized: " ++ detail
  | invalidRequest detail => "Invalid request: " ++ detail
  | conflict detail => "Concurrent modification: " ++ detail
  | config detail => "Configuration error: " ++ detail
  | io detail => "IO error: " ++ detail
  | database detail => "Database error: " ++ detail
  | json detail => "JSON error: " ++ detail

/-- Whether the operation may succeed when it is tried again: after a fault of the index or of the
database, and after a `conflict`. -/
def isRetryable : Failure → Bool
  | index _ | conflict _ | database _ => true
  | _ => false

/-- The exit code of a command that fails so: `1`, and for a `panic` the runtime's `101`. -/
def exitCode : Failure → Nat
  | panic => 101
  | _ => 1

/-- There is no saved search `id`. -/
def searchNotFound (id : String) : Failure := .notFound ("Saved search not found: " ++ id)

/-- A saved search vanished between a write and the reading back of it. -/
def searchDisappeared : Failure := .notFound "Saved search disappeared after update"

/-- The saved search may be changed by its owner only. -/
def notOwner : Failure := .unauthorized "Not owner of this saved search"

/-- The saved search `id` may be run by its owner only. -/
def otherOwner (id : String) : Failure :=
  .unauthorized ("Saved search " ++ id ++ " belongs to another user")

/-- The saved search `id` is not one that is run on a schedule. -/
def notDashboard (id : String) : Failure :=
  .invalidRequest ("Saved search " ++ id ++ " is not a dashboard search")

/-- The saved search `id` was written since it was read at `revision`. -/
def changedSince (id : String) (revision : Int) : Failure :=
  .conflict ("Saved search " ++ id ++ " changed since revision " ++ toString revision)

/-- The index has a hit `id` for which the repository has no node. -/
def missingEntity (id : String) : Failure := .repository ("indexed entity not found: " ++ id)

/-- The stored time `text` cannot be read. -/
def invalidTimestamp (text : String) : Failure := .parse ("Invalid timestamp " ++ text)

/-- The log format `format` is none of the known ones. -/
def unknownLogFormat (format : String) : Failure := .config ("Unknown log format: " ++ format)

/-- The source of the schema does not tell a version. -/
def noVersion : Failure := .repository "no version"

end Failure

end DocSearch
