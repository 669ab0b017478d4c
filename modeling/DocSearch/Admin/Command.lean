import DocSearch.Admin.Report
import DocSearch.Config.Layers
import DocSearch.Index.Encoding

/-!
# Administration commands

The arguments of the command line, and the report that each command gives.  Files are read outside;
here they are texts.

* `Invocation.ofArguments?` reads the arguments, `Command.usage` is shown if they state nothing.
* `Settings.variableNames` and `Settings.entityFile` say which variables and which file a command
  needs, so that the outer layer can fetch them before anything is computed.
* `Report.ofQuery` and `Report.ofStats` are what a command prints for the text of that file; the
  reports themselves are made from an `Index`, which `Index.read` fills.
-/

namespace DocSearch

/-- An administration command, as `Command.ofArguments?` reads it. -/
inductive Command where
  /-- lists the fields of the schema in `file` -/
  | checkSchema (file : String)
  /-- runs `statement` in the main area -/
  | query (statement : String) (offset : UInt64) (limit : Option UInt64)
  /-- counts documents -/
  | stats
deriving DecidableEq

/-- A command, and the file of the settings it runs with if `--config` names one. -/
structure Invocation where
  config : Option String
  command : Command
deriving DecidableEq

namespace Command

/-- The arguments of a `query` read so far; each may be given once. -/
structure QueryArguments where
  statement : Option String := none
  offset : Option UInt64 := none
  limit : Option UInt64 := none

/-- The query that the arguments state, after those in `q`; a statement that begins with a dash
stands behind `--`. -/
def ofQueryArguments? (q : QueryArguments) : List String → Option Command
  | [] => q.statement.map fun s => query s (q.offset.getD 0) q.limit
  | ["--", s] => if q.statement.isSome then none else some (query s (q.offset.getD 0) q.limit)
  | "--offset" :: n :: args =>
    match q.offset, Settings.writtenWord? n.toList with
    | none, some n => ofQueryArguments? { q with offset := some n } args
    | _, _ => none
  | "--limit" :: n :: args =>
    match q.limit, Settings.writtenWord? n.toList with
    | none, some n => ofQueryArguments? { q with limit := some n } args
    | _, _ => none
  | s :: args =>
    if q.statement.isSome || s.toList.head? == some '-' then none
    else ofQueryArguments? { q with statement := some s } args

/-- The command that the arguments behind `--config` state. -/
def ofArguments? : List String → Option Command
  | ["check-schema", file] => some (checkSchema file)
  | "query" :: args => ofQueryArguments? {} args
  | ["stats"] => some stats
  | _ => none

end Command

namespace Invocation

/-- The invocation that the arguments of the command line state; `-c` is short for `--config`. -/
def ofArguments? : List String → Option Invocation
  | "-c" :: file :: args => (Command.ofArguments? args).map (⟨some file, ·⟩)
  | "--config" :: file :: args => (Command.ofArguments? args).map (⟨some file, ·⟩)
  | args => (Command.ofArguments? args).map (⟨none, ·⟩)

example : ofArguments? ["-c", "s.toml", "query", "--limit", "5", "--", "-x"] =
    some ⟨some "s.toml", .query "-x" 0 (some 5)⟩ := by decide +kernel

end Invocation

/-- What is shown for arguments for which `Invocation.ofArguments?` is `none`. -/
def Command.usage : String :=
  "Usage: search-admin [--config <CONFIG>] check-schema <FILE>\n" ++
  "       search-admin [--config <CONFIG>] query [--offset <OFFSET>] [--limit <LIMIT>] <STATEMENT>\n" ++
  "       search-admin [--config <CONFIG>] stats\n"

/-- The variables of the environment that set a key, all of which begin with `SEARCH_RS__`. -/
def Settings.variableNames : List String :=
  ["INDEX__PATH", "INDEX__WRITER_HEAP_BYTES", "STORAGE__DATABASE_URL",
    "SCHEMA__PROPERTY_GROUPS_PATH",
    "SEARCH__DEFAULT_PAGE_SIZE", "SEARCH__MAX_PAGE_SIZE", "SEARCH__EXCERPT_LENGTH",
    "KEYWORD_CLOUD__STRATEGY", "LOGGING__LEVEL", "LOGGING__FORMAT"].map ("SEARCH_RS__" ++ ·)

/-- The file, at `indexPath`, in which the entities of the index are kept. -/
def Settings.entityFile (s : Settings) : String := s.indexPath ++ "/entities.json"

/-- The index of the entities that the JSON `text` lists, committed once. -/
def Index.read (settings : SearchSettings) (text : String) : Except Failure Index :=
  match (Json.read? text).bind fun v => v.asList?.bind (·.mapM Entity.ofValue?) with
  | some entities => .ok (entities.foldl Index.enter (.empty settings.excerptLength.toNat)).commit
  | none => .error (.index "the entities cannot be read")

namespace Report

/-- The report of a query over the `entities` in a text. -/
def ofQuery (settings : Settings) (entities statement : String) (offset : UInt64)
    (limit : Option UInt64) : Report :=
  ofExcept ((Index.read settings.search entities).map fun i =>
    query i settings.search statement offset limit)

/-- The report on the number of the `entities` in a text. -/
def ofStats (settings : Settings) (entities : String) : Report :=
  ofExcept ((Index.read settings.search entities).map stats)

end Report

end DocSearch
