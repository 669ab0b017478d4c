import DocSearch.Index.Document
import DocSearch.Proofs.Text.LowerCase
import DocSearch.Query.Compile

/-!
# What a description asks for

`Description.Admits` says which entities a description asks for, filter by filter and in terms of
the entity alone; no term of the index and no condition stands in it.

* Some domain of the description covers the kind of the entity (`Domain.Covers`).
* The entity passes the filters of that domain (`Description.AsksOfDocument`,
  `Description.AsksOfFolder`, `Description.AsksOfMail`).
* It passes those of every domain (`Description.AsksOfAny`).

A value that is missing or blank asks for nothing (`Description.Asks`).

A property is found by its name and an equals sign in front of what it is found by
(`Entity.HasProperty`).  If no name has an equals sign itself, these are the properties of that name
(`Entity.hasProperty_iff`).
-/

namespace DocSearch

/-- Whether the `text` is one that the `pattern` stands for once this is in lower case. -/
@[irreducible]
def Wildcard.Matches (pattern text : String) : Prop :=
  Fits (Wildcard.pattern (Text.lower pattern)) text.toList

/-- `Wildcard.Matches` in terms of the pieces of the pattern, as `Wildcard.Fits` reads them. -/
theorem Wildcard.matches_iff {pattern text : String} :
    Matches pattern text ↔ Fits (Wildcard.pattern (Text.lower pattern)) text.toList := by
  rw [Matches]

/-- Whether a domain covers a kind of entities. -/
def Domain.Covers : Domain → EntityKind → Prop
  | .document, kind => kind = .document ∨ kind = .attachment
  | .folder, kind => kind = .folder
  | .mail, kind => kind = .mail

namespace Entity

variable (e : Entity)

/-- Every word of the `value` is a pattern for a word of the text. -/
def HasWords (value : String) : Prop :=
  ∀ w ∈ Text.words value, ∃ t ∈ Token.ofText e.content, Wildcard.Matches w t.term

/-- The `value` is a pattern for the name; without wildcards, for a part of the name. -/
def HasName (value : String) : Prop :=
  Wildcard.Matches (if Wildcard.hasWildcard value then value else "*" ++ value ++ "*")
    (Text.fold e.name)

/-- The entity lies in one of the folders of the `scope`; if the path is not expanded, the `path` is
a pattern for the top-level area. -/
def LiesUnder (scope : Scope) (path : String) : Prop :=
  match scope.root with
  | some _ => ∃ parent, e.parent = some parent ∧ parent ∈ scope.folders
  | none => Wildcard.Fits (Wildcard.pattern (Description.contextOf path))
    (Text.fold e.context).toList

/-- The day of the last change lies between the days of `first` and `last`. -/
def ChangedBetween (first last : Timestamp) : Prop :=
  first.day.key ≤ e.lastModified.day.key ∧ e.lastModified.day.key ≤ last.day.key

/-- A property of the `name`, capitals not counted, is found by a value that `suits`. -/
def HasProperty (name : String) (suits : String → Prop) : Prop :=
  ∃ p ∈ e.properties.entries, ∃ t ∈ propertyTerms p.2, ∃ value,
    Text.fold (propertyTerm p.1 t) = propertyTerm (Text.lower name) value ∧ suits value

/-- The entity passes the filter on a property of some `kind`. -/
def PassesProperty (kind : FieldKind) (name value : String) : Prop :=
  match kind with
  | .selectSingle => e.HasProperty name (· = Text.lower value)
  | .selectMultiple => ∀ o ∈ Description.options value, e.HasProperty name (· = Text.lower o)
  | .dateInput => ∀ first last, Description.dayPair? value = some (first, last) →
      e.HasProperty name fun v => first.key ≤ v ∧ v ≤ last.key
  | .textInput | .textArea =>
    ∀ w ∈ Text.words value, e.HasProperty name fun v => Wildcard.Matches w v
  | .other => e.HasProperty name fun v => Wildcard.Matches value v

end Entity

namespace Description

/-- A `value` that is missing or blank asks for nothing, any other one for what it says without the
blanks around it. -/
@[irreducible]
def Asks (value : Option String) (filter : String → Prop) : Prop :=
  match value.bind Text.nonBlank? with
  | some v => filter v
  | none => True

variable (q : Description) (schema : Schema) (scope : Scope) (e : Entity)

/-- What the description `q` asks of documents. -/
structure AsksOfDocument : Prop where
  content : Asks q.content e.HasWords
  name : Asks q.name e.HasName
  path : Asks q.path (e.LiesUnder scope)
  mimeType : Asks q.mimeType fun v => e.mimeType = some v
  author : Asks q.author fun v => e.author = some v
  lastModified : ∀ first last, q.lastModifiedFrom = some first → q.lastModifiedTo = some last →
    e.ChangedBetween first last

/-- What the description `q` asks of folders. -/
structure AsksOfFolder : Prop where
  name : Asks q.name e.HasName
  path : Asks q.path (e.LiesUnder scope)

/-- What the description `q` asks of mails. -/
structure AsksOfMail : Prop where
  path : Asks q.path (e.LiesUnder scope)
  content : Asks q.content e.HasWords
  subject : Asks q.mailSubject fun v => ∃ s, e.subject = some s ∧ Wildcard.Matches v (Text.fold s)
  sender : Asks q.mailFrom fun v => ∃ s, e.sender = some s ∧ Wildcard.Matches v (Text.fold s)
  recipient : Asks q.mailTo fun v => ∃ s ∈ e.recipients, Wildcard.Matches v (Text.fold s)
  mimeType : Asks q.mimeType fun v => e.mimeType = some v

/-- What the description `q` asks of an entity of any kind. -/
structure AsksOfAny : Prop where
  keywords : ∀ k ∈ q.keywords, Asks (some k) fun v =>
    ∃ w ∈ e.keywords, Wildcard.Matches v (Text.fold w)
  categories : ∀ c ∈ q.categories, Asks (some c) fun v => v ∈ e.categories
  properties : ∀ name value, q.properties.get? name = some value → Asks (some value) fun v =>
    ∀ f, schema.field? name = some f → e.PassesProperty f.kind name v

/-- What the description `q` asks of the entities of a domain. -/
def AsksOf : Domain → Prop
  | .document => q.AsksOfDocument scope e
  | .folder => q.AsksOfFolder scope e
  | .mail => q.AsksOfMail scope e

/-- The entities that the description `q` asks for. -/
def Admits : Prop :=
  ∃ d ∈ q.domains, d.Covers e.kind ∧ q.AsksOf scope e d ∧ q.AsksOfAny schema e

end Description

/-! ## Properties by name -/

/-- Texts that are joined by an equals sign can be told apart if there is none in the first. -/
theorem Text.append_equals_inj : ∀ {a b c d : List Char}, '=' ∉ a → '=' ∉ c →
    (a ++ '=' :: b = c ++ '=' :: d ↔ a = c ∧ b = d)
  | [], b, [], d, _, _ => by simp
  | [], b, y :: c, d, _, hc => by
    have hy : '=' ≠ y := fun heq => hc (heq ▸ .head _)
    simp [hy]
  | x :: a, b, [], d, ha, _ => by
    have hx : x ≠ '=' := fun heq => ha (heq ▸ .head _)
    simp [hx]
  | x :: a, b, y :: c, d, ha, hc => by
    have ih := append_equals_inj (b := b) (d := d) (List.not_mem_of_not_mem_cons ha)
      (List.not_mem_of_not_mem_cons hc)
    simp only [List.cons_append, List.cons.injEq, ih, and_assoc]

/-- If names have no equals sign, the property found is the one of the `name`. -/
theorem Entity.hasProperty_iff {e : Entity} {name : String} {suits : String → Prop}
    (hname : '=' ∉ name.toList) (hnames : ∀ p ∈ e.properties.entries, '=' ∉ p.1.toList) :
    e.HasProperty name suits ↔ ∃ p ∈ e.properties.entries, Text.fold p.1 = Text.lower name ∧
      ∃ t ∈ propertyTerms p.2, suits (Text.fold t) := by
  have hterm : ∀ p ∈ e.properties.entries, ∀ t value,
      Text.fold (propertyTerm p.1 t) = propertyTerm (Text.lower name) value ↔
        Text.fold p.1 = Text.lower name ∧ Text.fold t = value := by
    intro p hp t value
    have hleft : '=' ∉ (Text.fold p.1).toList := by
      rw [Text.toList_fold]
      exact mt (Text.mem_of_mem_lowerEach (by decide)) (hnames p hp)
    have hright : '=' ∉ (Text.lower name).toList := by
      rw [Text.toList_lower]
      exact mt (Text.mem_of_mem_lowerWordsFrom (by decide)) hname
    -- The equals sign stands before the letters, so lower case keeps it and makes no other.
    have hequals : '='.toNat < 'A'.toNat := by decide
    have hfold : (Text.fold (propertyTerm p.1 t)).toList =
        (Text.fold p.1).toList ++ '=' :: (Text.fold t).toList := by
      simp [Text.toList_fold, propertyTerm, Text.lowerEach_append,
        Text.lowerEach_cons_of_lt hequals]
    rw [← String.toList_inj, hfold, ← String.toList_inj, ← String.toList_inj,
      ← Text.append_equals_inj hleft hright]
    simp [propertyTerm]
  constructor
  · rintro ⟨p, hp, t, ht, value, heq, hsuits⟩
    obtain ⟨hp', rfl⟩ := (hterm p hp t value).mp heq
    exact ⟨p, hp, hp', t, ht, hsuits⟩
  · rintro ⟨p, hp, hp', t, ht, hsuits⟩
    exact ⟨p, hp, t, ht, _, (hterm p hp t _).mpr ⟨hp', rfl⟩, hsuits⟩

end DocSearch
