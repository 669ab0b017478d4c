import DocSearch.Failure
import DocSearch.Index.Excerpt
import DocSearch.Index.Interpretation
import DocSearch.Index.Relevance

/-!
# The index

Documents are searched as of the last commit.  Changes wait until they are committed
(`Index.commit`); entering an entity is two changes, the deletion of its identifier and the addition
of its document, and a deletion concerns the documents that are there when it is its turn
(`Change.apply`).

`Index.search` ranks the documents that meet a condition by score, those of equal score in the order
in which they were entered, and answers one page of the ranking.  It can fail in two ways: it is
refused if the index cannot look for one of its patterns (`IndexRequest.condition`), and the program
stops if the window of an excerpt has no end (`Index.show?`).
-/

namespace DocSearch

/-- A change that waits for a commit. -/
inductive Change where
  | add (d : Document)
  | delete (id : String)
deriving DecidableEq

/-- The documents after a change. -/
def Change.apply (docs : List Document) : Change → List Document
  | add d => docs ++ [d]
  | delete id => docs.filter (·.id ≠ id)

/-- A search put to the index. -/
inductive IndexRequest where
  | compiled (c : Compiled)
  /-- A statement `text`, perhaps restricted to a top-level area. -/
  | statement (text : String) (context : Option String)

/-- A document found, with its score and its excerpt. -/
structure IndexHit where
  id : String
  score : Score
  excerpt : Option String

/-- A page of documents found, and how many there are in all. -/
structure IndexPage where
  total : Nat
  hits : List IndexHit

/-- The searchable documents and the changes that wait. -/
structure Index where
  published : List Document
  pending : List Change
  excerptLength : Nat

namespace IndexRequest

/-- What a search asks of the documents of the corpus `c`. -/
def condition (c : Corpus) : IndexRequest → Except Failure Condition
  | compiled q =>
    if q.condition.isSearchable then .ok q.condition
    else .error (.index "a pattern has too many states")
  | statement text context =>
    match Statement.conditionOf c text with
    | .error fault => .error (.parse fault.detail)
    | .ok c =>
      match context with
      | none => .ok c
      | some area => .ok (.allOf [c, .term .context (Text.lower area) false])

/-- The terms that excerpts show. -/
def shownTerms : IndexRequest → List String
  | compiled c => Excerpt.termsOfCompiled c
  | statement text _ => Excerpt.termsOfStatement text

end IndexRequest

namespace Index

/-- The index without documents, for excerpts of `excerptLength` characters. -/
def empty (excerptLength : Nat) : Index := ⟨[], [], excerptLength⟩

/-- Adds the change `c` to those that wait. -/
def write (i : Index) (c : Change) : Index := { i with pending := i.pending ++ [c] }

/-- Takes the entity `id` out, at the next commit. -/
def remove (i : Index) (id : String) : Index := i.write (.delete id)

/-- Enters the entity `e`, replacing its earlier version. -/
def enter (i : Index) (e : Entity) : Index := (i.remove e.id).write (.add (.ofEntity e))

/-- Makes the changes that wait, which publishes them. -/
def commit (i : Index) : Index :=
  { i with published := i.pending.foldl Change.apply i.published, pending := [] }

/-- Forgets the changes that wait, as opening the index anew does. -/
def reopen (i : Index) : Index := { i with pending := [] }

/-- The number of searchable documents. -/
def size (i : Index) : Nat := i.published.length

/-- The documents that meet the condition `c`, in the order in which they were entered. -/
def found (i : Index) (c : Condition) : List Document := i.published.filter c.holds

/-- The documents that the condition `c` ranks with their scores, best first. -/
def ranking (i : Index) (c : Condition) : List (Document × Score) :=
  ((i.published.filter c.ranks).map fun d => (d, Corpus.score i.published d 1 c)).mergeSort
    fun a b => !(a.2 < b.2)

/-- The document `d` found, as it is shown around the first of the `terms`.  Where the window of its
excerpt has no end the program stops. -/
def show? (i : Index) (terms : List String) (d : Document) (score : Score) :
    Except Failure IndexHit :=
  match Excerpt.create? d.body terms i.excerptLength with
  | some excerpt => .ok ⟨d.id, score, excerpt⟩
  | none => .error .panic

/-- The page of `limit` documents at `offset` in the ranking for `r`; it ends where the documents
found would. -/
def search (i : Index) (r : IndexRequest) (offset limit : Nat) : Except Failure IndexPage := do
  let c ← r.condition i.published
  let total := (i.found c).length
  let shown := ((i.ranking c).drop offset).take (min limit (total - offset))
  let hits ← shown.mapM fun h => i.show? r.shownTerms h.1 h.2
  pure ⟨total, hits⟩

end Index

end DocSearch
