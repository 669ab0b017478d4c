import DocSearch.Failure
import DocSearch.Query.Encoding
import DocSearch.Repository.Tree

/-!
# Keyword clouds and their cache

A `KeywordCloud` counts, over the nodes that carry all keywords of a filter, how many carry each
other keyword (`KeywordCloud.ofNodes`).

For every user the cache holds the keywords of each node as stored text.  It is filled from the
repository (`KeywordCache.refresh`) and kept current by entering and removing nodes
(`KeywordCache.setNode`, `KeywordCache.removeNode`).  What is stored is read again each time it is
used (`KeywordCache.entries`), so a text that was damaged makes the reading fail.

A `CloudStrategy` says where clouds are computed from: from the nodes that the user may read, or
from the rows of the cache.  That the two agree for a cache that follows the repository is proved of
all updates.
-/

namespace DocSearch

/-! ## Clouds -/

/-- Counts by keyword. -/
abbrev KeywordCloud := SortedMap String Nat

namespace KeywordCloud

/-- One more node with `keyword`. -/
def count (cloud : KeywordCloud) (keyword : String) : KeywordCloud :=
  cloud.insert keyword ((cloud.get? keyword).getD 0 + 1)

/-- The cloud with a node added, if it carries the whole `filter`: its keywords beyond the filter
count. -/
def addNode (filter : SortedSet String) (cloud : KeywordCloud) (keywords : SortedSet String) :
    KeywordCloud :=
  if filter.isSubset keywords then
    (keywords.toList.filter fun k => !filter.contains k).foldl count cloud
  else cloud

/-- The cloud of the keywords of some `nodes`; a missing `filter` is an empty one. -/
def ofNodes (nodes : List (SortedSet String)) (filter : Option (SortedSet String)) : KeywordCloud :=
  nodes.foldl (addNode (filter.getD .empty)) .empty

end KeywordCloud

/-! ## The cache -/

/-- Stored keywords by user and node. -/
structure KeywordCache where
  rows : SortedMap String (SortedMap String String)
deriving DecidableEq

namespace KeywordCache

/-- The cache without rows. -/
def empty : KeywordCache := ⟨.empty⟩

/-- The `keywords` as they are stored, a JSON list. -/
def encode (keywords : SortedSet String) : String := Json.write (.ofTextSet keywords)

/-- The keywords that a stored `text` states, if it was written by `encode`. -/
def decode (text : String) : Except Failure (SortedSet String) :=
  match (Json.read? text).bind Value.asTextSet? with
  | some keywords => .ok keywords
  | none => .error (.json "stored keywords cannot be read")

/-- The rows of `user`, none before anything was stored for that user. -/
def rowsOf (c : KeywordCache) (user : String) : SortedMap String String :=
  (c.rows.get? user).getD .empty

/-- Replaces the rows of `user` by those of the given `nodes`. -/
def refresh (c : KeywordCache) (user : String) (nodes : List NodeKeywords) : KeywordCache :=
  ⟨c.rows.insert user (.ofList (nodes.map fun n => (n.node, encode n.keywords)))⟩

/-- Stores the `keywords` of `node` as `user` sees them. -/
def setNode (c : KeywordCache) (user node : String) (keywords : SortedSet String) : KeywordCache :=
  ⟨c.rows.insert user ((c.rowsOf user).insert node (encode keywords))⟩

/-- Removes `node` from the rows of every user. -/
def removeNode (c : KeywordCache) (node : String) : KeywordCache :=
  ⟨c.rows.mapValues (·.erase node)⟩

/-- Overwrites the stored text of a row with `text`, if there is one. -/
def overwrite (c : KeywordCache) (user node text : String) : Option KeywordCache :=
  ((c.rowsOf user).get? node).map fun _ => ⟨c.rows.insert user ((c.rowsOf user).insert node text)⟩

/-- The keywords stored for `user`, in order of the nodes; one row that cannot be read makes all
fail. -/
def entries (c : KeywordCache) (user : String) : Except Failure (List NodeKeywords) :=
  (c.rowsOf user).entries.mapM fun row => (decode row.2).map (⟨row.1, ·⟩)

end KeywordCache

/-- Where keyword clouds are computed from. -/
inductive CloudStrategy where
  /-- the nodes of the repository -/
  | live
  /-- the rows of the cache -/
  | cached
deriving DecidableEq, Repr

namespace CloudStrategy

/-- The word for a strategy. -/
def label : CloudStrategy → String
  | live => "live"
  | cached => "cached"

/-- The strategy that a word names. -/
def ofLabel? : String → Option CloudStrategy
  | "live" => some live
  | "cached" => some cached
  | _ => none

/-- The strategy that `v` names, by its word alone or as a table with that one field, `null`. -/
def ofValue? (v : Value) : Option CloudStrategy := do
  match ← v.asCase? with
  | (name, .null) => ofLabel? name
  | _ => none

/-- The strategy that a value of a TOML document names: a text, or the first name in a table, with
nothing behind it.  A table in one piece must have no other name. -/
def ofDocument? : Value → Option CloudStrategy
  | .text name => ofLabel? name
  | .table [(name, v)] => if v.isVoid then ofLabel? name else none
  | .openTable ((name, v) :: _) => if v.isVoid then ofLabel? name else none
  | _ => none

/-- The cloud of `user` under a `filter`, from the repository `r` or the cache `c`. -/
def cloud (s : CloudStrategy) (r : Repository) (c : KeywordCache) (user : String)
    (filter : Option (SortedSet String)) : Except Failure KeywordCloud :=
  match s with
  | live => .ok (.ofNodes ((r.nodeKeywords user).map (·.keywords)) filter)
  | cached => (c.entries user).map fun nodes => .ofNodes (nodes.map (·.keywords)) filter

end CloudStrategy

end DocSearch
