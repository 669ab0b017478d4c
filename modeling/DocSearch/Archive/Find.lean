import DocSearch.Archive.State
import DocSearch.Query.Compile

/-!
# Finding

A description is compiled with the current schema and the folders that its path covers
(`Archive.compile`); if that succeeds the search is recorded and put to the index, and the user is
shown what that user may read of the answer (`Archive.ask`).  A statement is put to the index as it
stands, restricted to the main area (`Archive.findStatement`).

A failure to compile leaves the record of the searches as it is, a failure of the index does not:
what was asked for is recorded before it is answered.  In both cases the loader keeps the schema
that was read, so an archive may be another one after a search that failed.
-/

namespace DocSearch.Archive

/-- The compiled form of the description `q`, with the schema that the loader answers and the
folders that the path of `q` stands for. -/
def compile (s : Archive) (q : Description) : Except Failure Compiled × Archive :=
  let (loaded, loader) := s.loader.resolve s.schemaSource
  let compiled := do
    let loaded ← loaded
    let scope ← Scope.resolve s.repository ((q.path.bind Text.nonBlank?).getD "")
    pure (q.compile loaded.schema scope)
  (compiled, { s with loader })

/-- The page of `limit` hits from `offset` on that `user` is shown for the request `r`; `limit` is
kept within the settings (`SearchSettings.pageSize`). -/
def ask (s : Archive) (r : IndexRequest) (offset : UInt64) (limit : Option UInt64) (user : String) :
    Except Failure ResultPage × Archive :=
  let answer := s.index.search r offset.toNat (s.settings.pageSize limit).toNat
  (ResultPage.ofAnswer s.repository user answer, { s with audit := s.audit ++ [⟨user, r⟩] })

/-- A page of what the description `q` finds; `q.offset` and `q.limit` do not count here. -/
def findPage (s : Archive) (q : Description) (offset : UInt64) (limit : Option UInt64)
    (user : String) :
    Except Failure ResultPage × Archive :=
  match s.compile q with
  | (.ok compiled, s) => s.ask (.ofQuery compiled) offset limit user
  | (.error e, s) => (.error e, s)

/-- What the description `q` finds, on the page that it asks for itself. -/
def find (s : Archive) (q : Description) (user : String) : Except Failure ResultPage × Archive :=
  s.findPage q q.offset q.limit user

/-- A page of what `statement` finds in the main area. -/
def findStatement (s : Archive) (statement : String) (offset : UInt64) (limit : Option UInt64)
    (user : String) : Except Failure ResultPage × Archive :=
  s.ask (.inMainArea statement) offset limit user

/-- The keyword cloud of `user`, computed with the strategy that the archive is set to. -/
def keywordCloud (s : Archive) (user : String) (filter : Option (SortedSet String)) :
    Except Failure KeywordCloud :=
  s.strategy.cloud s.repository s.cache user filter

end DocSearch.Archive
