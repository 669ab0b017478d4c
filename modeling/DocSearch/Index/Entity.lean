import DocSearch.Calendar.DayReader
import DocSearch.Repository.Entity

/-!
# Entities as they are indexed

An `Entity` is everything of an entity that can be searched for.  Its name and its area are not
given but read off its path (`Entity.name`, `Entity.context`), as the nodes of the repository do, so
that a search by name and a look-up by path speak of the same names.
-/

namespace DocSearch

/-- An entity with everything that can be searched for. -/
structure Entity where
  id : String
  kind : EntityKind
  path : String
  parent : Option String
  /-- The text of a document or mail. -/
  content : String
  author : Option String
  mimeType : Option String
  keywords : SortedSet String
  categories : SortedSet String
  /-- Property values by property name. -/
  properties : SortedMap String String
  lastModified : Timestamp
  subject : Option String
  sender : Option String
  recipients : List String
deriving DecidableEq

namespace Entity

/-- The name of the entity: the last segment of its `path`. -/
def name (e : Entity) : String := Path.entityName e.path

/-- The top-level area of the entity: the first segment of its `path`. -/
def context (e : Entity) : String := Path.context e.path

end Entity

end DocSearch
