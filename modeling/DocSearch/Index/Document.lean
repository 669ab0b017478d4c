import DocSearch.Index.Entity
import DocSearch.Index.Field
import DocSearch.Text.Alphanumeric
import DocSearch.Text.Blank
import DocSearch.Text.LowerCase

/-!
# Documents of the index

A `Document` is what the index keeps of an entity: values by field.  Terms come from values by the
analysis of their field (`Field.terms`); words also have positions.  A word of a hundred bytes or
more gives no term, but its position is used up.

A property gives several terms, each with its name in front (`propertyTerm`), for each of the ways
in which a value is asked for: as a whole, by an option, by a word or by a day (`propertyTerms`).

Of a field that is kept whole, the terms are taken to be entered whatever their length.  The library
under the index leaves out, with a warning, a term of more than 65530 bytes; that no name, path,
keyword or value of a property is as long is assumed wherever a theorem speaks of every name or
every value.

A `Corpus` is the list of the searchable documents: it says how many have a term (`Corpus.holders`),
how long a field is on average, and which terms there are (`Corpus.endings`).
-/

namespace DocSearch

/-- A word and its `position` among the words of its value. -/
structure Token where
  position : Nat
  term : String
deriving DecidableEq, Repr

/-- What the index keeps of an entity. -/
structure Document where
  id : String
  /-- Values in the order in which they were entered. -/
  values : List (Field × String)
deriving DecidableEq

/-- The length below which a word is a term, in bytes. -/
def wordLimit : Nat := 100

/-- The words of `text` with their positions: runs of letters and numbers in lower case, those of
`wordLimit` bytes or more left out. -/
def Token.ofText (text : String) : List Token :=
  ((Text.runs Text.isAlphanumeric text.toList).zipIdx.filter fun w =>
    (String.ofList w.1).utf8ByteSize < wordLimit).map fun w =>
      ⟨w.2, String.ofList (Text.lowerEach w.1)⟩

/-- The terms that `value` gives in the field `f`; it is assumed to have no more than 65530
bytes. -/
def Field.terms (f : Field) (value : String) : List String :=
  match f.analysis with
  | .words => (Token.ofText value).map (·.term)
  | .folded => [Text.fold value]
  | .verbatim => [value]
  | .stored => []

/-- What the `value` of a property is found by: the whole value, its parts between commas, its
words, and its day if it is one.  A blank value is not found. -/
def propertyTerms (value : String) : SortedSet String :=
  match Text.nonBlank? value with
  | none => .empty
  | some v =>
    .ofList ([v] ++ (Text.pieces ',' v).filterMap Text.nonBlank? ++ Text.words v ++
      ((Day.read? v).map Day.key).toList)

example : (propertyTerms " red, Dark Blue ").toList =
    ["Blue", "Dark", "Dark Blue", "red", "red,", "red, Dark Blue"] := by decide +kernel

/-- The property `name` and what it is found by, as one text. -/
def propertyTerm (name term : String) : String := name ++ "=" ++ term

namespace Document

/-- The field that the text of an entity goes to: `content` for a mail. -/
def bodyField (kind : EntityKind) : Field := if kind = .mail then .content else .text

/-- The document of the entity `e`: its values by field, those of each field in order. -/
def ofEntity (e : Entity) : Document where
  id := e.id
  values :=
    [(.id, e.id), (.kind, e.kind.label), (.context, e.context), (.path, e.path), (.name, e.name),
      (.lastModified, e.lastModified.day.key)] ++
    e.parent.toList.map (.parent, ·) ++
    (if e.content.isEmpty then [] else [(bodyField e.kind, e.content)]) ++
    e.author.toList.map (.author, ·) ++
    e.mimeType.toList.map (.mimeType, ·) ++
    e.keywords.toList.map (.keyword, ·) ++
    e.categories.toList.map (.category, ·) ++
    e.subject.toList.map (.subject, ·) ++
    e.sender.toList.map (.sender, ·) ++
    e.recipients.map (.recipient, ·) ++
    e.properties.entries.flatMap fun p =>
      (propertyTerms p.2).toList.map fun term => (.property, propertyTerm p.1 term)

/-- The values of the field `f`. -/
def valuesOf (d : Document) (f : Field) : List String :=
  (d.values.filter (·.1 = f)).map (·.2)

/-- The terms of the field `f`, by which `d` is found. -/
def terms (d : Document) (f : Field) : List String := (d.valuesOf f).flatMap f.terms

/-- The words of the field `f` with their positions, by which phrases are found. -/
def tokens (d : Document) (f : Field) : List Token := (d.valuesOf f).flatMap Token.ofText

/-- The stored text: that of a document, else that of a mail. -/
def body (d : Document) : String :=
  match d.valuesOf .text ++ d.valuesOf .content with
  | [] => ""
  | text :: _ => text

end Document

/-! ## The searchable documents -/

/-- The searchable documents, in the order in which they were entered. -/
abbrev Corpus := List Document

namespace Corpus

/-- The number of documents that have the term `t` in `f`. -/
def holders (c : Corpus) (f : Field) (t : String) : Nat :=
  c.countP fun d => (d.terms f).contains t

/-- The mean number of terms of the field `f`. -/
def averageLength (c : Corpus) (f : Field) : Float32 :=
  Float32.ofNat (c.foldl (fun n d => n + (d.terms f).length) 0) / Float32.ofNat c.length

/-- The `words` with those that fewer documents have in front; words that equally many have keep
their order. -/
def rarestFirst (c : Corpus) (f : Field) (words : List Token) : List Token :=
  let held := words.map fun w => (c.holders f w.term, w)
  (held.mergeSort fun a b => a.1 ≤ b.1).map (·.2)

/-- The greatest number of terms that the open end of a phrase stands for. -/
def endingLimit : Nat := 50

/-- The terms of `f` that begin with `start`, in order, up to `endingLimit`. -/
def endings (c : Corpus) (f : Field) (start : String) : List String :=
  let fitting := (c.flatMap (·.terms f)).filter fun t => start.toList.isPrefixOf t.toList
  (SortedSet.ofList fitting).toList.take endingLimit

end Corpus

end DocSearch
