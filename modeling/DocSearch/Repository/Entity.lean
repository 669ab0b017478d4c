import DocSearch.Calendar.Timestamp
import DocSearch.Sorted.Map

/-!
# Entities of the repository

A repository holds documents, folders, mails and attachments, each under an identifier and a path
whose segments are divided by slashes.  `Summary` is what a reader is shown of an entity.

Names and areas are read off paths, and not in one way only: `Path.summaryName` takes the last
segment as it is, so that a path that ends with a slash has an empty one, while `Path.entityName`,
by which the index names entities, drops these slashes first.
-/

namespace DocSearch

/-- The kinds of entities. -/
inductive EntityKind where
  | document
  | folder
  | mail
  | attachment
deriving DecidableEq, Repr

namespace EntityKind

/-- The word for a kind. -/
def label : EntityKind → String
  | document => "document"
  | folder => "folder"
  | mail => "mail"
  | attachment => "attachment"

/-- The kind that a word names. -/
def ofLabel? : String → Option EntityKind
  | "document" => some document
  | "folder" => some folder
  | "mail" => some mail
  | "attachment" => some attachment
  | _ => none

end EntityKind

namespace Path

/-- The characters behind the last slash of `cs`. -/
def lastSegment (cs : List Char) : List Char := (cs.reverse.takeWhile (· ≠ '/')).reverse

/-- The characters before the first slash of `cs`. -/
def firstSegment (cs : List Char) : List Char := cs.takeWhile (· ≠ '/')

/-- The `path` without the slashes that it ends with. -/
def withoutTrailing (path : String) : String :=
  String.ofList ((path.toList.reverse.dropWhile (· = '/')).reverse)

/-- The last segment of `path`; empty if the path ends with a slash. -/
def summaryName (path : String) : String := String.ofList (lastSegment path.toList)

/-- The last segment of `path` that is not empty. -/
def entityName (path : String) : String :=
  String.ofList (lastSegment (path.toList.reverse.dropWhile (· = '/')).reverse)

/-- The first segment of `path` that is not empty: the top-level area the path lies in. -/
def context (path : String) : String :=
  String.ofList (firstSegment (path.toList.dropWhile (· = '/')))

example : summaryName "/a/b/" = "" ∧ entityName "/a/b/" = "b" ∧ context "//a/b" = "a" := by decide

end Path

/-- What a reader is shown of an entity. -/
structure Summary where
  id : String
  kind : EntityKind
  path : String
  author : Option String
  lastModified : Option Timestamp
  keywords : SortedSet String
deriving DecidableEq

end DocSearch
