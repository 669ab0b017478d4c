import DocSearch.Index.Store
import DocSearch.Repository.Scope

/-!
# Results

What a user is shown for a page of the index: every hit that the user may read, with the summary of
its entity and its score in percent (`ResultPage.ofAnswer`).  Hits that may not be read are passed
over; a hit whose entity does not exist fails the whole page, whether the hits before it may be read
or not.  The total is that of the index, so it counts documents that the user is not shown.

An `AuditRecord` keeps who searched for what.
-/

namespace DocSearch

/-- A hit as a user is shown it. -/
structure Hit where
  excerpt : Option String
  percent : Nat
  entity : Summary
deriving DecidableEq

/-- A page of hits, and how many documents were found in all. -/
structure ResultPage where
  total : Nat
  results : List Hit
deriving DecidableEq

/-- The hits that `user` may read, of those of the index. -/
def IndexHit.readable (r : Repository) (user : String) : List IndexHit → Except Failure (List Hit)
  | [] => .ok []
  | h :: hs =>
    match r.summary? h.id user with
    | none => .error (.missingEntity h.id)
    | some none => readable r user hs
    | some (some entity) => (readable r user hs).map (⟨h.excerpt, h.score.percent, entity⟩ :: ·)

/-- What `user` is shown for an `answer` of the index. -/
def ResultPage.ofAnswer (r : Repository) (user : String) (answer : Except Failure IndexPage) :
    Except Failure ResultPage :=
  match answer with
  | .error e => .error e
  | .ok page => (IndexHit.readable r user page.hits).map (⟨page.total, ·⟩)

/-- The search for the compiled query `c`. -/
def IndexRequest.ofQuery (c : Compiled) : IndexRequest := .compiled c

/-- The search for `statement` in the main area. -/
def IndexRequest.inMainArea (statement : String) : IndexRequest :=
  .statement statement (some Scope.mainArea)

/-- A search that a user made. -/
structure AuditRecord where
  user : String
  request : IndexRequest

end DocSearch
