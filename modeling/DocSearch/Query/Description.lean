import DocSearch.Calendar.Timestamp
import DocSearch.Sorted.Map

/-!
# Query descriptions

A `Description` is everything that can be asked for in one search.  A part that is missing asks for
nothing, and the domains say among which kinds of entities is searched.

A dashboard search shows what was changed since its last run.  `Description.advance` moves its
window to the time of a run: the window now ends there, and begins where it ended before.  A second
run on the same day leaves the beginning alone, so that what the first run showed is shown again.  A
search that never ran looks back one month (`Description.lastRun`).
-/

namespace DocSearch

/-- The kinds of things searched for, each with its own fields. -/
inductive Domain where
  | document
  | folder
  | mail
deriving DecidableEq, Repr

namespace Domain

/-- The place of a domain in the order of domains. -/
def rank : Domain → Nat
  | document => 0
  | folder => 1
  | mail => 2

instance : LT Domain := ⟨fun a b => a.rank < b.rank⟩

instance : DecidableLT Domain := fun a b => inferInstanceAs (Decidable (a.rank < b.rank))

instance : LE Domain := ⟨fun a b => a.rank ≤ b.rank⟩

instance : Std.IsLinearOrder Domain where
  le_refl a := Nat.le_refl a.rank
  le_trans a b c := Nat.le_trans (m := b.rank)
  le_antisymm a b hab hba := by
    have hrank : a.rank = b.rank := Nat.le_antisymm hab hba
    cases a <;> cases b <;> first | rfl | cases hrank
  le_total a b := Nat.le_total a.rank b.rank

instance : Std.LawfulOrderLT Domain where
  lt_iff a b := Nat.lt_iff_le_and_not_ge (m := a.rank) (n := b.rank)

/-- The word for a domain. -/
def label : Domain → String
  | document => "document"
  | folder => "folder"
  | mail => "mail"

/-- The domain that a word names. -/
def ofLabel? : String → Option Domain
  | "document" => some document
  | "folder" => some folder
  | "mail" => some mail
  | _ => none

/-- A domain is named by its own word. -/
theorem ofLabel?_label (d : Domain) : ofLabel? d.label = some d := by cases d <;> rfl

end Domain

/-- Everything that can be asked for in one search. -/
structure Description where
  domains : SortedSet Domain
  name : Option String := none
  content : Option String := none
  author : Option String := none
  mimeType : Option String := none
  path : Option String := none
  mailSubject : Option String := none
  mailFrom : Option String := none
  mailTo : Option String := none
  keywords : SortedSet String := .empty
  categories : SortedSet String := .empty
  /-- Filter values by property name. -/
  properties : SortedMap String String := .empty
  lastModifiedFrom : Option Timestamp := none
  lastModifiedTo : Option Timestamp := none
  offset : UInt64 := 0
  limit : Option UInt64 := none
deriving DecidableEq

namespace Description

/-- The search for all documents. -/
def documents : Description := { domains := .ofList [.document] }

instance : Inhabited Description := ⟨documents⟩

/-- The search for documents by the words of their `content`. -/
def byContent (content : String) : Description := { documents with content := some content }

/-- The search for documents by their `name`, which may be a pattern. -/
def byName (name : String) : Description := { documents with name := some name }

/-- The search for documents by their `keywords`, all of which they must have. -/
def byKeywords (keywords : SortedSet String) : Description := { documents with keywords }

/-- The search for the documents filed under `category`. -/
def byCategory (category : String) : Description :=
  { documents with categories := .ofList [category] }

/-- The search `q` in other domains. -/
def withDomains (q : Description) (domains : SortedSet Domain) : Description := { q with domains }

/-- The search `q` with another page. -/
def withPage (q : Description) (offset limit : UInt64) : Description :=
  { q with offset, limit := some limit }

end Description

/-! ## The window of a dashboard search -/

/-- The same time one month earlier, unless there is no such day. -/
def Timestamp.monthBefore (t : Timestamp) : Timestamp :=
  match t.day.monthBefore? with
  | some day => { t with day }
  | none => t

namespace Description

/-- Where the window of `q` ended at the last run, or a month before `now`. -/
def lastRun (q : Description) (now : Timestamp) : Timestamp := q.lastModifiedTo.getD now.monthBefore

/-- The search `q` with its window moved to `now`. -/
def advance (q : Description) (now : Timestamp) : Description :=
  if (q.lastRun now).day < now.day then
    { q with lastModifiedFrom := some (q.lastRun now), lastModifiedTo := some now }
  else { q with lastModifiedTo := some now }

end Description

end DocSearch
