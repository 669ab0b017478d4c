import DocSearch.Failure
import DocSearch.Repository.Tree
import DocSearch.Text.Blank

/-!
# Folder scopes

A search under a folder covers the folder and every folder below it.  `Scope.resolve` finds them by
going from folder to folder, each visited once, so links that form a cycle do no harm
(`Scope.visit`).  A visit puts the subfolders that have not been seen at the end of the queue; there
are no more visits than nodes, and one more for the first folder, which need not be a node.

The reserved top-level paths are not expanded: their scope is empty, and a search asks for the area
instead of the folders.
-/

namespace DocSearch

/-- The folders that a path covers; without a `root`, the path is not expanded. -/
structure Scope where
  root : Option String
  folders : SortedSet String
deriving DecidableEq

namespace Scope

/-- The scope of a path that is not expanded. -/
def empty : Scope := ⟨none, .empty⟩

/-- Whether `s` is that of a path that is not expanded. -/
def isEmpty (s : Scope) : Bool := s.root.isNone

/-- The main area of the repository. -/
def mainArea : String := "okm:root"

/-- The top-level areas. -/
def areas : List String :=
  [mainArea, "okm:categories", "okm:templates", "okm:personal", "okm:mail", "okm:trash"]

/-- Whether `path` is empty or that of a top-level area, blanks around it and slashes at its end not
counted. -/
def isReserved (path : String) : Bool :=
  let p := Text.trimEnd (· == '/') (Text.trim Text.isBlank path.toList)
  p.isEmpty || areas.any fun area => p == '/' :: area.toList

/-- The folders reached from those in `queue`, in the order of their visits; `seen` are the folders
that were in the queue at some time.  `fuel` bounds the number of visits. -/
def visit (r : Repository) : (fuel : Nat) → (seen queue : List String) → List String
  | 0, _, _ => []
  | _, _, [] => []
  | fuel + 1, seen, id :: queue =>
    let fresh := (r.childFolders id).filter fun child => !seen.contains child
    id :: visit r fuel (fresh ++ seen) (queue ++ fresh)

/-- The folder `root` and every folder below it. -/
def foldersFrom (r : Repository) (root : String) : List String := visit r (r.size + 1) [root] [root]

/-- The scope of `path`, which must lead to some node unless it is reserved. -/
def resolve (r : Repository) (path : String) : Except Failure Scope :=
  if isReserved path then .ok empty
  else
    let p := Text.trimmed path
    match r.idOfPath? p with
    | none => .error (.pathNotFound p)
    | some root => .ok ⟨some root, .ofList (foldersFrom r root)⟩

end Scope

end DocSearch
