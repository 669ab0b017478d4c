import DocSearch.Data.Record
import DocSearch.Failure
import DocSearch.Keyword.Cache
import DocSearch.Toml.Reader

/-!
# Settings

The sections of the settings, their defaults, and the strict reader of a settings file, in which
every value has the type that is expected of it.

`Settings.ofValue?` says which sections and keys there are, which of them may be left out, and what
stands for them.  How a single value is read is left to a `Settings.Reader`, because settings are
read in two ways: from a file alone, where `Reader.strict` wants every value to have its type, and
from a file with the environment laid over it, where texts count as numbers too.
-/

namespace DocSearch

/-- How results are paged, and how long an excerpt is. -/
structure SearchSettings where
  defaultPageSize : UInt64 := 10
  maxPageSize : UInt64 := 500
  excerptLength : UInt64 := 150
deriving DecidableEq

/-- The settings that a program runs with. -/
structure Settings where
  indexPath : String
  writerHeapBytes : UInt64
  databaseUrl : String
  propertyGroupsPath : String
  search : SearchSettings
  strategy : CloudStrategy
  logLevel : String
  logFormat : String
deriving DecidableEq

namespace SearchSettings

/-- The size of a page, `requested` or the default one, but not more than `maxPageSize`. -/
def pageSize (s : SearchSettings) (requested : Option UInt64) : UInt64 :=
  min (requested.getD s.defaultPageSize) s.maxPageSize

/-- The settings of a search that `v` states; each may be left out. -/
def ofValue? (v : Value) : Option SearchSettings := do
  let r ← Record.of? ["default_page_size", "max_page_size", "excerpt_length"] v
  pure {
    defaultPageSize := ← r.withDefault "default_page_size" 10 Value.asWord?
    maxPageSize := ← r.withDefault "max_page_size" 500 Value.asWord?
    excerptLength := ← r.withDefault "excerpt_length" 150 Value.asWord? }

end SearchSettings

namespace Settings

/-- The size of the writer's memory, if `writer_heap_bytes` is not set. -/
def defaultHeapBytes : UInt64 := 50000000

/-- The settings that stand without a file. -/
def standard : Settings where
  indexPath := "/tmp/search-rs/index"
  writerHeapBytes := defaultHeapBytes
  databaseUrl := "sqlite://search.db"
  propertyGroupsPath := "property-groups.toml"
  search := {}
  strategy := .live
  logLevel := "info"
  logFormat := "pretty"

instance : Inhabited Settings := ⟨standard⟩

/-- How the values of settings are read: one function for each type that a key can have. -/
structure Reader where
  text : Value → Option String
  word : Value → Option UInt64
  strategy : Value → Option CloudStrategy
  record : List String → Value → Option Record

/-- The reader that expects every value to have its type. -/
def Reader.strict : Reader :=
  ⟨Value.asText?, Value.asWord?, CloudStrategy.ofDocument?, Record.ofDocument?⟩

/-- The settings that `v` states, its values read by `reader`. -/
def ofValue? (reader : Reader) (v : Value) : Option Settings := do
  let top ← reader.record ["index", "storage", "schema", "search", "keyword_cloud", "logging"] v
  let index ← top.required "index" (reader.record ["path", "writer_heap_bytes"])
  let storage ← top.required "storage" (reader.record ["database_url"])
  let schema ← top.required "schema" (reader.record ["property_groups_path"])
  let search ← top.withDefault "search" ⟨true, []⟩
    (reader.record ["default_page_size", "max_page_size", "excerpt_length"])
  let cloud ← top.withDefault "keyword_cloud" ⟨true, []⟩ (reader.record ["strategy"])
  let logging ← top.required "logging" (reader.record ["level", "format"])
  pure {
    indexPath := ← index.required "path" reader.text
    writerHeapBytes := ← index.withDefault "writer_heap_bytes" defaultHeapBytes reader.word
    databaseUrl := ← storage.required "database_url" reader.text
    propertyGroupsPath := ← schema.required "property_groups_path" reader.text
    search := {
      defaultPageSize := ← search.withDefault "default_page_size" 10 reader.word
      maxPageSize := ← search.withDefault "max_page_size" 500 reader.word
      excerptLength := ← search.withDefault "excerpt_length" 150 reader.word }
    strategy := ← cloud.withDefault "strategy" .live reader.strategy
    logLevel := ← logging.required "level" reader.text
    logFormat := ← logging.required "format" reader.text }

/-- The failure of settings that cannot be read, by whichever `Reader`. -/
def unreadable : Failure := .config "the settings cannot be read"

/-- The settings that the `text` of a file states, read strictly. -/
def read (text : String) : Except Failure Settings :=
  match (Toml.read? text).bind (ofValue? .strict) with
  | some s => .ok s
  | none => .error unreadable

/-- Settings as data, every section and key of them. -/
def toValue (s : Settings) : Value := .table [
  ("index", .table [("path", .text s.indexPath),
    ("writer_heap_bytes", .int s.writerHeapBytes.toNat)]),
  ("storage", .table [("database_url", .text s.databaseUrl)]),
  ("schema", .table [("property_groups_path", .text s.propertyGroupsPath)]),
  ("search", .table [("default_page_size", .int s.search.defaultPageSize.toNat),
    ("max_page_size", .int s.search.maxPageSize.toNat),
    ("excerpt_length", .int s.search.excerptLength.toNat)]),
  ("keyword_cloud", .table [("strategy", .text s.strategy.label)]),
  ("logging", .table [("level", .text s.logLevel), ("format", .text s.logFormat)])]

end Settings

/-- How log lines are written. -/
inductive LogFormat where
  | json
  | pretty
deriving DecidableEq, Repr

/-- The log format that a word names, which is `json` or `pretty`. -/
def LogFormat.ofLabel : String → Except Failure LogFormat
  | "json" => .ok json
  | "pretty" => .ok pretty
  | format => .error (.unknownLogFormat format)

end DocSearch
