import DocSearch.Proofs.Query.AnywherePattern
import DocSearch.Proofs.Query.OwnWords
import DocSearch.Proofs.Text.LoweredParts

/-!
# Finding a document by a part of its name

A name that is asked for without wildcards may stand anywhere (`Wildcard.pattern_lower_stars`): in
front of it and behind it there may be any characters that a wildcard stands for, which are all but
line feeds (`Wildcard.fits_anywhere_iff`).  The name that is asked for is in lower case as running
text (`Text.lower`), the name of the document character by character (`Text.fold`).

* A search finds a document iff its name is made so, and the index can look for what is asked for
  (the first part of `byName_finds_iff`).
* For up to 115 characters the index can, and then the documents found are those whose names contain
  what is asked for, capitals not counted, if there is no line feed in their names and no capital
  sigma at the end of a word of what is asked for (its second part).
* Otherwise this fails, with a document for each cause (`byName_finds_other`).

Names are taken to be short enough to be kept as terms, as for all documents (see `Document`).
-/

namespace DocSearch

namespace Wildcard

/-- A text has another one somewhere iff it is what is between two texts without line feeds. -/
theorem fits_anywhere_iff {cs t : List Char} :
    Fits (anywhere cs) t ↔ ∃ a b, t = a ++ cs ++ b ∧ '\n' ∉ a ∧ '\n' ∉ b := by
  have hline : ∀ {x : List Char}, (∀ c ∈ x, c ≠ '\n') ↔ '\n' ∉ x :=
    ⟨fun h hmem => h _ hmem rfl, fun h c hc heq => h (heq ▸ hc)⟩
  rw [anywhere, Fits]
  simp only [fits_literally_append, Fits, hline]
  constructor
  · rintro ⟨a, _, rfl, ha, _, rfl, b, _, rfl, hb, rfl⟩
    exact ⟨a, b, by simp, ha, hb⟩
  · rintro ⟨a, b, rfl, ha, hb⟩
    exact ⟨a, cs ++ b, by simp, ha, b, rfl, b, [], by simp, hb, rfl⟩

/-- The stars around a text leave its lower case as it is. -/
theorem pattern_lower_stars {s : String} (h : hasWildcard s = false) :
    pattern (Text.lower ("*" ++ s ++ "*")) = anywhere (Text.lower s).toList := by
  have hstar : Text.PartsCase '*' := by decide +kernel
  have hlower : Text.lowerChar '*' = ['*'] := by decide +kernel
  have hstars : (Text.lower ("*" ++ s ++ "*")).toList = '*' :: (Text.lower s).toList ++ ['*'] := by
    have hparts : ("*" ++ s ++ "*").toList = [] ++ '*' :: (s.toList ++ '*' :: []) := by simp
    rw [Text.toList_lower, hparts, Text.lowerWords_append_cons hstar,
      Text.lowerWords_append_cons hstar, hlower, Text.toList_lower]
    simp [Text.lowerWords, Text.lowerWordsFrom]
  have hplain : (Text.lower s).toList.map piece = literally (Text.lower s) :=
    pattern_of_hasWildcard (hasWildcard_lower h)
  rw [pattern, hstars, List.map_append, List.map_cons, hplain]
  rfl

end Wildcard

/-! ## The search by name -/

namespace Description

theorem compile_byName {value name : String} (h : Text.nonBlank? value = some name)
    (schema : Schema)
    (scope : Scope) : (byName value).compile schema scope = .alone .document [nameClause name] := by
  have hdomains : (byName value).domains.toList = [.document] := rfl
  have hcommon : (byName value).commonClauses schema = [] := rfl
  have hown :
      (byName value).ownClauses scope .document = asked (some value) (fun v => [nameClause v]) := by
    change [] ++ asked (some value) _ ++ [] ++ [] ++ [] ++ [] = _
    simp only [List.append_nil, List.nil_append]
  have hasked : asked (some value) (fun v => [nameClause v]) = [nameClause name] := by
    rw [asked, Option.bind_some, h]
  rw [compile, hdomains, List.map_singleton, hown, hcommon, List.append_nil, hasked, Compiled.alone]

/-- The clause for a `name` without wildcards looks for it anywhere. -/
theorem patterns_nameClause {name : String} (h : Wildcard.hasWildcard name = false) :
    (nameClause name).condition.patterns = [Wildcard.anywhere (Text.lower name).toList] := by
  rw [nameClause, h, if_neg Bool.false_ne_true, Clause.patterns_wildcard (by decide),
    Wildcard.pattern_lower_stars h]

end Description

/-- A `name` without wildcards is one that the name of the entity has somewhere. -/
theorem Entity.hasName_iff {e : Entity} {name : String} (h : Wildcard.hasWildcard name = false) :
    e.HasName name ↔ Wildcard.Fits (Wildcard.anywhere (Text.lower name).toList)
    (Text.fold e.name).toList := by
  rw [HasName, h, if_neg Bool.false_ne_true, Wildcard.matches_iff, Wildcard.pattern_lower_stars h]

/-- What a search for a `name` without wildcards finds:
* It finds a document iff its name in lower case is the name that is asked for, in lower case as
  running text, with characters other than line feeds around it, and the index can look for it.
* If there are at most 115 characters in what is asked for and no capital sigma at the end of a word
  of it (`Text.lower name = Text.fold name`), and no line feed in the name of the document, these
  are the documents whose names contain what is asked for, capitals not counted.

The name of the document is one that the index keeps whole, of up to 65530 bytes. -/
theorem byName_finds_iff {e : Entity} (hd : Domain.document.Covers e.kind) {i : Index}
    {later : List Change} (others : ∀ c ∈ later, c.id ≠ e.id) {schema : Schema} {scope : Scope}
    {value name : String} (hname : Text.nonBlank? value = some name)
    (hplain : Wildcard.hasWildcard name = false) :
    ((i.storing e later).Finds ((Description.byName value).compile schema scope) e.id ↔
      Wildcard.isSearchable (Wildcard.anywhere (Text.lower name).toList) = true ∧
        ∃ a b, (Text.fold e.name).toList = a ++ (Text.lower name).toList ++ b ∧
          '\n' ∉ a ∧ '\n' ∉ b) ∧
    ((Text.lower name).toList.length ≤ 115 → '\n' ∉ e.name.toList →
      Text.lower name = Text.fold name →
        ((i.storing e later).Finds ((Description.byName value).compile schema scope) e.id ↔
          (Text.fold name).toList <:+: (Text.fold e.name).toList)) := by
  have hfinds : (i.storing e later).Finds ((Description.byName value).compile schema scope) e.id ↔
      Wildcard.isSearchable (Wildcard.anywhere (Text.lower name).toList) = true ∧
        ∃ a b, (Text.fold e.name).toList = a ++ (Text.lower name).toList ++ b ∧
          '\n' ∉ a ∧ '\n' ∉ b := by
    rw [Description.compile_byName hname, Index.finds_alone_iff others, and_iff_right hd,
      Description.pass_nameClause, List.forall_mem_singleton,
      Description.patterns_nameClause hplain, List.forall_mem_singleton, Entity.hasName_iff hplain,
      Wildcard.fits_anywhere_iff]
  refine ⟨hfinds, fun hlength hline hlower => ?_⟩
  rw [hfinds, ← hlower]
  -- Lower case makes no line feeds.
  have hfold : '\n' ∉ (Text.fold e.name).toList := by
    rw [Text.toList_fold]
    exact mt (Text.mem_of_mem_lowerEach (by decide)) hline
  constructor
  · rintro ⟨_, a, b, heq, _, _⟩
    exact ⟨a, b, heq.symm⟩
  · rintro ⟨a, b, heq⟩
    rw [← heq] at hfold ⊢
    have hpart : '\n' ∉ (Text.lower name).toList := fun h => hfold (by simp [h])
    exact ⟨Wildcard.isSearchable_anywhere hpart hlength, a, b, rfl, fun h => hfold (by simp [h]),
      fun h => hfold (by simp [h])⟩

/-! ### A report of some name -/

/-- The report under a `path`. -/
def reportAt (path : String) : Entity := { Description.redReport with path }

/-- The report is found, in an index that keeps nothing else, by the search for a name. -/
def NameFound (path asked : String) : Prop :=
  ((Index.empty 100).storing (reportAt path) []).Finds
    ((Description.byName asked).compile Description.colorSchema .empty) (reportAt path).id

instance (path asked : String) : Decidable (NameFound path asked) :=
  inferInstanceAs (Decidable (Index.Finds _ _ _))

/-- A report is found by a part of its name in other capitals. -/
theorem byName_finds_draft : NameFound "/okm:root/Old-Drafts.txt" " DRAFT " := by
  have hname : Text.nonBlank? " DRAFT " = some "DRAFT" := by decide +kernel
  have hkind : Domain.document.Covers (reportAt "/okm:root/Old-Drafts.txt").kind := .inl rfl
  refine ((byName_finds_iff hkind (List.forall_mem_nil _) hname (by decide)).2
    (by decide +kernel) (by decide)
    (by decide +kernel)).mpr ?_
  exact ⟨"old-".toList, "s.txt".toList, by decide +kernel⟩

/-- What the search for a name does outside these bounds:
* A report is not found by its own name if a word of it ends with a capital sigma, but is found by
  it if its name has the small sigma for the end of a word instead, which no capital sigma becomes
  in the name of a report.
* Neither is it found by a part of its name if a line feed stands in front of this part. -/
theorem byName_finds_other :
    (¬ NameFound "/okm:root/ΟΔΟΣ" "ΟΔΟΣ" ∧
      (Text.fold "ΟΔΟΣ").toList <:+: (Text.fold (reportAt "/okm:root/ΟΔΟΣ").name).toList) ∧
    (NameFound "/okm:root/οδος" "ΟΔΟΣ" ∧
      ¬ (Text.fold "ΟΔΟΣ").toList <:+: (Text.fold (reportAt "/okm:root/οδος").name).toList) ∧
    (¬ NameFound "/okm:root/Old\nDraft" "draft" ∧
      (Text.fold "draft").toList <:+: (Text.fold (reportAt "/okm:root/Old\nDraft").name).toList) ∧
    ∀ asked ∈ ["ΟΔΟΣ", "draft"], Text.nonBlank? asked = some asked ∧
    Wildcard.hasWildcard asked = false := by
  decide +kernel

end DocSearch
