import DocSearch.Proofs.Query.Finding
import DocSearch.Proofs.Query.LiteralPattern
import DocSearch.Proofs.Text.Runs

/-!
# Finding a document by its own words

A search by content looks, for each word of what is asked, for a word of the index that is the lower
case of it.  The words of what is asked end at blanks (`Text.words`), those of the index at anything
that is no letter or number (`Token.ofText`).

* A word without wildcards stands for its lower case alone (`Wildcard.matches_iff_eq`), and the
  index can look for it if it is short enough for a term (`Wildcard.isSearchable_lower`).
* The terms of a text are its short runs of letters and numbers (`Token.exists_term_iff`), so what
  the search finds is a question about these runs (`finds_byContent_iff`).
* A text of letters and numbers is the only run in it, and no other text has a run with its lower
  case (`Text.forall_isAlphanumeric_iff`).

So a document is found by words of its own content if they consist of letters and numbers, but not
always by words with other marks in them (`byContent_finds_iff`, `byContent_finds_not`).
-/

namespace DocSearch

/-! ## Words without wildcards -/

namespace Wildcard

theorem pattern_of_hasWildcard {s : String} (h : hasWildcard s = false) :
    pattern s = s.toList.map .literal := by
  rw [pattern]
  refine List.map_congr_left fun c hc => ?_
  have hplain := List.any_eq_false.mp h c hc
  simp only [Bool.or_eq_true, beq_iff_eq, not_or] at hplain
  rw [piece, if_neg hplain.1, if_neg hplain.2]

/-- Lower case makes no wildcards. -/
theorem hasWildcard_lower {s : String} (h : hasWildcard s = false) :
    hasWildcard (Text.lower s) = false := by
  rw [hasWildcard, List.any_eq_false] at h ⊢
  intro c hc hwild
  refine h c ?_ hwild
  rw [Text.toList_lower] at hc
  simp only [Bool.or_eq_true, beq_iff_eq] at hwild
  rcases hwild with rfl | rfl
  · exact Text.mem_of_mem_lowerWordsFrom (by decide) hc
  · exact Text.mem_of_mem_lowerWordsFrom (by decide) hc

/-- A word without wildcards stands for its lower case alone. -/
theorem matches_iff_eq {s text : String} (h : hasWildcard s = false) :
    Matches s text ↔ text = Text.lower s := by
  rw [matches_iff, pattern_of_hasWildcard (hasWildcard_lower h), fits_literals, String.toList_inj]

end Wildcard

theorem Text.length_le_utf8ByteSize : ∀ cs : List Char, cs.length ≤ (String.ofList cs).utf8ByteSize
  | [] => Nat.zero_le _
  | c :: cs => by
    have ih := length_le_utf8ByteSize cs
    have hpos := c.utf8Size_pos
    have heq : String.ofList (c :: cs) = String.singleton c ++ String.ofList cs := by
      rw [← String.toList_inj]
      simp
    rw [heq, String.utf8ByteSize_append, String.utf8ByteSize_singleton, List.length_cons]
    omega

/-- The index can look for the lower case of a word that is short enough for a term
(`wordLimit`). -/
theorem Wildcard.isSearchable_lower {s : String} (h : hasWildcard s = false)
    (hsize : s.utf8ByteSize < wordLimit) :
    isSearchable (pattern (Text.lower s)) = true := by
  have hlength := Text.length_le_utf8ByteSize s.toList
  rw [String.ofList_toList] at hlength
  have hbounds := Text.length_lowerEach_bounds s.toList
  rw [wordLimit] at hsize
  rw [pattern_of_hasWildcard (hasWildcard_lower h), Text.toList_lower, Text.lowerWords]
  refine isSearchable_literals ?_
  rw [Text.length_lowerWordsFrom]
  omega

/-! ## Terms of a text -/

/-- The terms of a `text` are its short words of letters and numbers in lower case. -/
theorem Token.exists_term_iff {text x : String} : (∃ t ∈ ofText text, t.term = x) ↔
    ∃ w, Text.IsRun Text.isAlphanumeric w.toList text.toList ∧ w.utf8ByteSize < wordLimit ∧
      Text.fold w = x := by
  simp only [← Text.mem_runs_iff, ofText, List.mem_map, List.mem_filter,
    List.mem_zipIdx_iff_getElem?, decide_eq_true_eq]
  constructor
  · rintro ⟨_, ⟨⟨w, n⟩, ⟨hw, hsize⟩, rfl⟩, rfl⟩
    refine ⟨String.ofList w, ?_, hsize, ?_⟩
    · rw [String.toList_ofList]
      exact List.mem_of_getElem? hw
    · rw [Text.fold, String.toList_ofList]
  · rintro ⟨w, hw, hsize, rfl⟩
    obtain ⟨n, hn⟩ := List.getElem?_of_mem hw
    exact ⟨_, ⟨(w.toList, n), ⟨hn, by rwa [String.ofList_toList]⟩, rfl⟩, rfl⟩

/-! ## The search by content -/

namespace Description

theorem asked_wordClauses (content field : String) : asked (some content) (wordClauses field) =
    wordClauses field content := by
  rw [wordClauses, ← Text.words_of_nonBlank? content, asked, Option.bind_some]
  cases Text.nonBlank? content <;> rfl

theorem compile_byContent (content : String) (schema : Schema) (scope : Scope) :
    (byContent content).compile schema scope =
      .alone .document (wordClauses Field.text.label content) := by
  have hdomains : (byContent content).domains.toList = [.document] := rfl
  have hcommon : (byContent content).commonClauses schema = [] := rfl
  have hown : (byContent content).ownClauses scope .document =
      asked (some content) (wordClauses Field.text.label) := by
    change asked (some content) _ ++ [] ++ [] ++ [] ++ [] ++ [] = _
    simp only [List.append_nil]
  rw [compile, hdomains, List.map_singleton, hown, hcommon, List.append_nil, asked_wordClauses,
    Compiled.alone]

end Description

/-- A text `t` of letters and numbers is the only run of them in it.  Any other text has no run with
its lower case: one that is shorter than the text has a shorter lower case. -/
theorem Text.forall_isAlphanumeric_iff {t : String} (ht : t ≠ "")
    (hsize : t.utf8ByteSize < wordLimit) :
    (∀ c ∈ t.toList, isAlphanumeric c = true) ↔
      ∃ w, IsRun isAlphanumeric w.toList t.toList ∧ w.utf8ByteSize < wordLimit ∧
      fold w = fold t := by
  constructor
  · intro h
    exact ⟨t, ⟨mt String.toList_eq_nil_iff.mp ht, h, [], [], by simp, by simp, by simp⟩, hsize, rfl⟩
  · rintro ⟨w, ⟨_, hinside, a, b, heq, _, _⟩, _, hfold⟩
    have hlength : (lowerEach w.toList).length = (lowerEach t.toList).length := by
      rw [← toList_fold, hfold, toList_fold]
    rw [heq, lowerEach_append, lowerEach_append, List.length_append, List.length_append] at hlength
    have ha := length_lowerEach_bounds a
    have hb := length_lowerEach_bounds b
    have ha' : a = [] := List.length_eq_zero_iff.mp (by omega)
    have hb' : b = [] := List.length_eq_zero_iff.mp (by omega)
    rw [ha', hb', List.nil_append, List.append_nil, String.toList_inj] at heq
    subst heq
    exact hinside

section

variable {e : Entity} (hd : Domain.document.Covers e.kind) {i : Index} {later : List Change}
  (others : ∀ c ∈ later, c.id ≠ e.id) {schema : Schema} {scope : Scope} {ts : List String}
  (hown : ∀ t ∈ ts, t ∈ Text.words e.content)
  (hplain : ∀ t ∈ ts, Wildcard.hasWildcard t = false ∧ t.utf8ByteSize < wordLimit)

include hd others hown hplain

/-- A search for words `ts` of its own content finds a document iff what each of them is lowered to
(`Text.lower`) is what a short run of letters and numbers in the content is kept as
(`Text.fold`). -/
theorem finds_byContent_iff :
    (i.storing e later).Finds
        ((Description.byContent (" ".intercalate ts)).compile schema scope) e.id ↔
      ∀ t ∈ ts, ∃ w, Text.IsRun Text.isAlphanumeric w.toList e.content.toList ∧
        w.utf8ByteSize < wordLimit ∧ Text.fold w = Text.lower t := by
  have hwords : Text.words (" ".intercalate ts) = ts :=
    Text.words_intercalate fun t ht => Text.isWord_of_mem_words (hown t ht)
  have hbody : Document.bodyField e.kind = .text := by
    rcases hd with h | h <;> rw [h] <;> rfl
  have hsearchable : ∀ c ∈ Description.wordClauses Field.text.label (" ".intercalate ts),
      ∀ p ∈ c.condition.patterns, Wildcard.isSearchable p = true := by
    rw [Description.wordClauses, hwords]
    refine List.forall_mem_map.mpr fun t ht p hp => ?_
    rw [Clause.patterns_wildcard (by decide), List.mem_singleton] at hp
    exact hp ▸ Wildcard.isSearchable_lower (hplain t ht).1 (hplain t ht).2
  rw [Description.compile_byContent, Index.finds_alone_iff others,
    Description.pass_wordClauses (by decide) hbody, and_iff_right hsearchable, and_iff_right hd,
    Entity.HasWords, hwords]
  refine forall₂_congr fun t ht => ?_
  simp only [Wildcard.matches_iff_eq (hplain t ht).1]
  exact Token.exists_term_iff

/-- What a search for words `ts` of its own content finds, where the lower case of each word is that
of its characters one by one (`Text.lower t = Text.fold t`):
* A document is found iff each word has the lower case of a short run of letters and numbers in the
  content.
* So words of letters and numbers find it.
* A document of one word is found by it only if it is such a word. -/
theorem byContent_finds_iff (hlower : ∀ t ∈ ts, Text.lower t = Text.fold t) :
    ((i.storing e later).Finds
        ((Description.byContent (" ".intercalate ts)).compile schema scope) e.id ↔
      ∀ t ∈ ts, ∃ w, Text.IsRun Text.isAlphanumeric w.toList e.content.toList ∧
        w.utf8ByteSize < wordLimit ∧ Text.fold w = Text.fold t) ∧
    ((∀ t ∈ ts, ∀ c ∈ t.toList, Text.isAlphanumeric c = true) →
      (i.storing e later).Finds
        ((Description.byContent (" ".intercalate ts)).compile schema scope) e.id) ∧
    (ts = [e.content] →
      ((i.storing e later).Finds
          ((Description.byContent (" ".intercalate ts)).compile schema scope) e.id ↔
        ∀ c ∈ e.content.toList, Text.isAlphanumeric c = true)) := by
  have hfinds :
      (i.storing e later).Finds
          ((Description.byContent (" ".intercalate ts)).compile schema scope) e.id ↔
        ∀ t ∈ ts, ∃ w, Text.IsRun Text.isAlphanumeric w.toList e.content.toList ∧
          w.utf8ByteSize < wordLimit ∧ Text.fold w = Text.fold t := by
    rw [finds_byContent_iff hd others hown hplain]
    refine forall₂_congr fun t ht => ?_
    rw [hlower t ht]
  rw [hfinds]
  refine ⟨Iff.rfl, fun halphanumeric t ht => ?_, fun hone => ?_⟩
  · exact ⟨t, Text.isRun_isAlphanumeric (hown t ht) (halphanumeric t ht), (hplain t ht).2, rfl⟩
  · subst hone
    rw [List.forall_mem_singleton] at hown hplain ⊢
    exact (Text.forall_isAlphanumeric_iff (Text.isWord_of_mem_words hown).ne_empty hplain.2).symm

end

/-! ### A report of one sentence -/

/-- The report with a `content`. -/
def reportOf (content : String) : Entity := { Description.redReport with content }

/-- The report is found, in an index that keeps nothing else, by the search for a content. -/
def ContentFound (content asked : String) : Prop :=
  ((Index.empty 100).storing (reportOf content) []).Finds
    ((Description.byContent asked).compile Description.colorSchema .empty) (reportOf content).id

instance (content asked : String) : Decidable (ContentFound content asked) :=
  inferInstanceAs (Decidable (Index.Finds _ _ _))

/-- A report is found by two words of its own. -/
theorem byContent_finds_approved : ContentFound "Approved by the board." "the Approved" := by
  have hown :
      ∀ t ∈ ["the", "Approved"], t ∈ Text.words (reportOf "Approved by the board.").content := by
    decide +kernel
  have hplain : ∀ t ∈ ["the", "Approved"], Wildcard.hasWildcard t = false ∧
      t.utf8ByteSize < wordLimit := by
    decide +kernel
  have hkind : Domain.document.Covers (reportOf "Approved by the board.").kind := .inl rfl
  have halphanumeric : ∀ t ∈ ["the", "Approved"], t.toList.all Text.isAlphanumeric = true := by
    decide +kernel
  obtain ⟨_, hfinds, _⟩ :=
    byContent_finds_iff hkind (i := Index.empty 100) (List.forall_mem_nil _) hown hplain
    (by decide +kernel)
  exact hfinds fun t ht => List.all_eq_true.mp (halphanumeric t ht)

/-- It is not found by the word that ends with a full stop, whose lower case is that of its
characters. -/
theorem byContent_finds_not :
    "board." ∈ Text.words "Approved by the board." ∧ Wildcard.hasWildcard "board." = false ∧
      "board.".utf8ByteSize < wordLimit ∧ Text.lower "board." = Text.fold "board." ∧
      ¬ ContentFound "Approved by the board." "board." := by
  decide +kernel

end DocSearch
