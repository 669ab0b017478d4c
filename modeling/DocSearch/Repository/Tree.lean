import DocSearch.Repository.Entity

/-!
# The repository

Nodes are kept by identifier, and a second map leads from paths to identifiers.  Inserting a node
enters its path in the second map and leaves all other entries alone, those of its earlier path
included; removing a node removes the entry of its path, whichever node owns it by then.  So the
second map need not fit the nodes: `Repository.idOfPath?` answers what was entered.

A node says who may read it.  What a user is shown of the nodes goes through `Node.isReadable`:
`Repository.summary?` for one of them, `Repository.nodeKeywords` for the keywords of all.
-/

namespace DocSearch

/-- An entity with its place in the tree and the users who may read it, `none` standing for
everybody. -/
structure Node where
  summary : Summary
  parent : Option String
  readers : Option (List String)
deriving DecidableEq

/-- Whether `user` may read the node `n`. -/
def Node.isReadable (n : Node) (user : String) : Bool :=
  match n.readers with
  | none => true
  | some users => users.contains user

/-- The keywords of one node. -/
structure NodeKeywords where
  node : String
  keywords : SortedSet String
deriving DecidableEq

/-- Nodes by identifier, and identifiers by path. -/
structure Repository where
  nodes : SortedMap String Node
  paths : SortedMap String String
deriving DecidableEq

namespace Repository

/-- The repository without nodes. -/
def empty : Repository := ⟨.empty, .empty⟩

/-- Enters the node `n`, replacing the one with its identifier. -/
def insert (r : Repository) (n : Node) : Repository :=
  ⟨r.nodes.insert n.summary.id n, r.paths.insert n.summary.path n.summary.id⟩

/-- Takes the node `id` out, and the entry of its path. -/
def remove (r : Repository) (id : String) : Option Node × Repository :=
  match r.nodes.get? id with
  | none => (none, r)
  | some n => (some n, ⟨r.nodes.erase id, r.paths.erase n.summary.path⟩)

/-- Replaces the keywords of the node `id`, if it exists. -/
def setKeywords? (r : Repository) (id : String) (keywords : SortedSet String) : Option Repository :=
  (r.nodes.get? id).map fun n =>
    { r with nodes := r.nodes.insert id { n with summary := { n.summary with keywords } } }

/-- The number of nodes. -/
def size (r : Repository) : Nat := r.nodes.size

/-- The identifier entered for `path`, slashes at its end not counted. -/
def idOfPath? (r : Repository) (path : String) : Option String :=
  r.paths.get? (Path.withoutTrailing path)

/-- The folders directly below the node `id`, in order of their identifiers. -/
def childFolders (r : Repository) (id : String) : List String :=
  (r.nodes.values.filter fun n => n.summary.kind = .folder ∧ n.parent = some id).map (·.summary.id)

/-- What `user` is shown of the node `id`: an error if it does not exist, nothing if it may not be
read. -/
def summary? (r : Repository) (id user : String) : Option (Option Summary) :=
  (r.nodes.get? id).map fun n => if n.isReadable user then some n.summary else none

/-- The keywords of every node that `user` may read, in order of the identifiers. -/
def nodeKeywords (r : Repository) (user : String) : List NodeKeywords :=
  (r.nodes.values.filter (·.isReadable user)).map fun n => ⟨n.summary.id, n.summary.keywords⟩

end Repository

end DocSearch
