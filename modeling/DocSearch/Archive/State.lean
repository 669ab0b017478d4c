import DocSearch.Config.Settings
import DocSearch.Index.Store
import DocSearch.Keyword.Cache
import DocSearch.Property.Loader
import DocSearch.Saved.Store
import DocSearch.Search.Results

/-!
# The archive

An `Archive` is all that searches work on: the repository and its index, the property schema, the
saved searches, the keyword cache, and the record of the searches that were made.  Operations on it
answer a value or a failure together with the archive as they leave it.

The parts do not know of each other.  In particular the index is filled by itself and not from the
repository: an entity can be found that has no node any more, and a node can be missing in the
index. What holds of an answer whatever the two hold is stated with `ResultPage.ofAnswer`.
-/

namespace DocSearch

/-- All that searches work on. -/
structure Archive where
  repository : Repository
  index : Index
  schemaSource : SchemaSource
  loader : Loader
  saved : SavedStore
  cache : KeywordCache
  settings : SearchSettings
  strategy : CloudStrategy
  /-- The searches made so far, the latest one last. -/
  audit : List AuditRecord

/-- The archive in which nothing is kept yet, with its source of schemas and its settings. -/
def Archive.empty (schemaSource : SchemaSource) (settings : SearchSettings)
    (strategy : CloudStrategy) :
    Archive where
  repository := .empty
  index := .empty settings.excerptLength.toNat
  schemaSource := schemaSource
  loader := .fresh
  saved := .empty
  cache := .empty
  settings := settings
  strategy := strategy
  audit := []

end DocSearch
