/-!
# Fields of the index

Every value that the index keeps of an entity belongs to a `Field`.  The `Analysis` of a field says
which terms a value gives: its words, the whole value in lower case, the whole value as it is, or
none.

Fields are named in two places.  A statement may name all of them (`Field.ofLabel?`), a clause those
of `Field.ofClauses` only, because every other name is that of a property there (`Field.ofClause?`);
so a property that has the name of a field of the index is not reached by a clause.
-/

namespace DocSearch

/-- The fields of the index. -/
inductive Field where
  | id
  | kind
  | context
  | path
  | parent
  | name
  /-- the text of a document -/
  | text
  /-- the text of a mail -/
  | content
  | author
  | mimeType
  | keyword
  | category
  | lastModified
  | subject
  | sender
  | recipient
  /-- `name=value`, for every property -/
  | property
deriving DecidableEq, Repr

/-- How a value is turned into terms. -/
inductive Analysis where
  /-- its words, in lower case, with their positions -/
  | words
  /-- the whole value in lower case -/
  | folded
  /-- the whole value as it is -/
  | verbatim
  /-- no terms: the value is kept, not searched -/
  | stored
deriving DecidableEq, Repr

namespace Field

/-- The word for a field, in clauses and in statements. -/
def label : Field → String
  | id => "id"
  | kind => "kind"
  | context => "context"
  | path => "path"
  | parent => "parent"
  | name => "name"
  | text => "text"
  | content => "content"
  | author => "author"
  | mimeType => "mime_type"
  | keyword => "keyword"
  | category => "category"
  | lastModified => "last_modified"
  | subject => "subject"
  | sender => "from"
  | recipient => "to"
  | property => "property"

/-- All fields, the order being that of the schema of the index. -/
def all : List Field :=
  [id, kind, context, path, parent, name, text, content, author, mimeType, keyword, category,
    lastModified, subject, sender, recipient, property]

/-- The fields that a clause may name; any other name is that of a property. -/
def ofClauses : List Field :=
  [name, text, content, author, mimeType, context, parent, keyword, category, lastModified, subject,
    sender, recipient]

/-- The field that the word `label` names. -/
def ofLabel? (label : String) : Option Field := all.find? (·.label == label)

/-- The field that `label` names in a clause, if it is one of `ofClauses`. -/
def ofClause? (label : String) : Option Field := ofClauses.find? (·.label == label)

/-- How the values of a field are turned into terms. -/
def analysis : Field → Analysis
  | text | content => .words
  | context | name | keyword | subject | sender | recipient | property => .folded
  | id | kind | parent | author | mimeType | category | lastModified => .verbatim
  | path => .stored

/-- A field is named by its own word. -/
theorem ofLabel?_label (f : Field) : ofLabel? f.label = some f := by cases f <;> decide

/-- Two fields have two words: `ofLabel?` reads each back. -/
theorem label_injective {a b : Field} (h : a.label = b.label) : a = b :=
  Option.some.inj (by rw [← ofLabel?_label a, ← ofLabel?_label b, h])

end Field

end DocSearch
