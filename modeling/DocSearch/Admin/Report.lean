import DocSearch.Archive.Find
import DocSearch.Property.Document

/-!
# Reports of the administration commands

Three commands inspect a schema, run a statement in the main area, and count documents.  A `Report`
is what a command prints and how it ends.

* `Report.checkSchema` lists the groups of a schema with their fields, or says what is wrong.
* `Report.query` shows a page of hits as a table, with columns of fixed width (`Report.row`).
* `Report.stats` counts documents and the parts that the index is kept in.

Whatever fails on the way ends as `Report.failed`: nothing on the output, the sentence for the
failure as an error, and its exit code.
-/

namespace DocSearch

/-- What a command prints, and its exit code. -/
structure Report where
  exitCode : Nat
  stdout : String
  stderr : String
deriving DecidableEq

namespace Report

/-- The report of a command that succeeded; every line of `ls` ends with a line feed. -/
def lines (ls : List String) : Report := ⟨0, ls.foldl (fun text l => text ++ l ++ "\n") "", ""⟩

/-- The report of a command that failed with `e`.  For a `panic` the text of the runtime is not
modelled, only that there is one and that the exit code is another. -/
def failed (e : Failure) : Report := ⟨e.exitCode, "", "Error: " ++ e.message ++ "\n"⟩

/-- The report of a command that may fail: its own, or that of `failed`. -/
def ofExcept (report : Except Failure Report) : Report :=
  match report with
  | .ok r => r
  | .error e => failed e

/-- Blanks that fill `s` up to `width`. -/
def filling (width : Nat) (s : String) : String :=
  String.ofList (List.replicate (width - s.length) ' ')

/-- The text `s` filled with blanks on its right, as names are. -/
def column (width : Nat) (s : String) : String := s ++ filling width s

/-- The text `s` filled with blanks on its left, as numbers are. -/
def columnRight (width : Nat) (s : String) : String := filling width s ++ s

/-- A row of the table of hits; the excerpt stands last because it may be of any length. -/
def row (entity score excerpt : String) : String :=
  column 40 entity ++ " " ++ columnRight 5 score ++ "  " ++ excerpt

/-- The line for the property field `f`. -/
def fieldLine (f : FieldDefinition) : String := "  " ++ column 40 f.name ++ " " ++ f.kind.title

/-- The lines for the property group `g`: its heading, and one for each field. -/
def groupLines (g : PropertyGroup) : List String :=
  (g.name ++ " (" ++ g.label ++ ")") :: g.fields.map fieldLine

/-- The report on a schema: its groups, and how many groups and fields there are. -/
def ofSchema (s : Schema) : Report :=
  lines (s.groups.flatMap groupLines ++
    ["", "✓ " ++ toString s.groups.length ++ " group(s), " ++ toString s.fieldCount ++ " field(s)"])

/-- The report on the text of a schema, which `Schema.parse` may refuse. -/
def checkSchema (body : String) : Report :=
  match Schema.parse body with
  | .ok schema => ofSchema schema
  | .error fault => failed (.schema fault)

/-- The report on a page of hits; the heading of the table is left out with the table. -/
def ofPage (page : IndexPage) : Report :=
  let table :=
    if page.hits.isEmpty then ["No hits."]
    else row "Entity" "Score" "Excerpt" :: String.ofList (List.replicate 80 '-') ::
      page.hits.map fun h => row h.id (toString h.score.percent) (h.excerpt.getD "")
  lines (table ++ ["", "Total: " ++ toString page.total ++ " match(es)"])

/-- The report on a `statement` run in the main area, `limit` being kept within the `settings`. -/
def query (i : Index) (settings : SearchSettings) (statement : String) (offset : UInt64)
    (limit : Option UInt64) : Report :=
  ofExcept ((i.search (.inMainArea statement) offset.toNat
    (settings.pageSize limit).toNat).map ofPage)

/-- The number of parts that the index is kept in: none if it is empty. -/
def segments (i : Index) : Nat := if i.size = 0 then 0 else 1

/-- The report on the size of the index `i`. -/
def stats (i : Index) : Report :=
  lines ["Documents: " ++ toString i.size, "Segments:  " ++ toString (segments i)]

/-- The report of a command that runs only if the log `format` is known. -/
def logging (format : String) (report : Report) : Report :=
  ofExcept ((LogFormat.ofLabel format).map fun _ => report)

example : row "é" "7" "x" = "é" ++ String.ofList (List.replicate 44 ' ') ++ "7  x" := by
  decide +kernel

end Report

end DocSearch
