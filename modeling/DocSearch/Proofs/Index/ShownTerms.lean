import DocSearch.Proofs.Index.Excerpts
import DocSearch.Proofs.Text.LoweredParts
import Mathlib.Data.List.Infix

/-!
# The term in an excerpt

An excerpt is made for the place where the first of its terms stands in the lower-case text.
Whether the term can be read in it is another question, since the window is laid on the text itself
and then cut.

* A term without blanks around it stands there only between the blanks around the text
  (`Excerpt.Bare.prefix_drop_iff`), and its blanks are those of the part of the text that it was
  found in (`Excerpt.blankAt_of_found`), as long as every character has one form in lower case.
* The window has room for the part, but is then cut at its last blank, and `Excerpt.CutShort` says
  when that comes before the end of the part (`Excerpt.lt_iff_cutShort`).
* For a word this is when the window begins with the text, a blank stands before the word, and the
  word goes on behind the window (`Excerpt.cutShort_iff_of_word`).

In every other case the excerpt shows the part (`Excerpt.create?_shows`); what it shows in these is
said there too, and `Excerpt.create?_cut_short` is one of them.
-/

namespace DocSearch.Excerpt

variable {s t text a b cs : List Char} {terms : List (List Char)} {i j n length last : Nat}

/-! ## Texts without blanks around them -/

/-- The text `s` neither begins nor ends with a blank. -/
structure Bare (s : List Char) : Prop where
  pos : 0 < s.length
  first : ¬ BlankAt s 0
  last : ¬ BlankAt s (s.length - 1)

/-- What is left when blanks are taken off is `Bare`, if anything is. -/
theorem bare_trim (h : Text.trim Text.isBlank cs ≠ []) : Bare (Text.trim Text.isBlank cs) := by
  have hpos := List.length_pos_iff.mpr h
  have hfront : Text.trim Text.isBlank cs <+: Text.trimStart Text.isBlank cs :=
    List.rdropWhile_prefix _ _
  refine ⟨hpos, ?_, ?_⟩
  · rintro ⟨c, hc, hblank⟩
    rw [List.getElem?_eq_getElem hpos, hfront.getElem hpos, Option.some.injEq] at hc
    subst hc
    exact List.dropWhile_eq_self_iff.mp (List.dropWhile_idempotent Text.isBlank cs)
      (hpos.trans_le hfront.length_le) hblank
  · rintro ⟨c, hc, hblank⟩
    rw [← List.getLast?_eq_getElem?, List.getLast?_eq_some_getLast h, Option.some.injEq] at hc
    subst hc
    exact List.rdropWhile_last_not _ _ h hblank

/-- A bare text stands in another one where it stands in what is left between the blanks around
that. -/
theorem Bare.prefix_drop_iff (hs : Bare s) (ha : ∀ c ∈ a, Text.isBlank c = true)
    (hb : ∀ c ∈ b, Text.isBlank c = true) :
    s <+: (a ++ text ++ b).drop j ↔ ∃ i, j = a.length + i ∧ s <+: text.drop i := by
  rw [List.append_assoc]
  constructor
  · intro h
    have hpos := hs.pos
    have hlength := h.length_le
    rw [List.length_drop, List.length_append, List.length_append] at hlength
    -- In the blanks around the text the first character or the last one would be a blank.
    have hfirst := (blankAt_of_standing h hpos).not.mpr hs.first
    have hlast := (blankAt_of_standing h (Nat.sub_lt hpos Nat.one_pos)).not.mpr hs.last
    obtain ⟨i, rfl⟩ : ∃ i, j = a.length + i := by
      refine Nat.exists_eq_add_of_le (Nat.le_of_not_lt fun hj => hfirst ?_)
      exact (blankAt_append_left hj).mpr (blankAt_of_forall ha hj)
    have hend : i + s.length ≤ text.length := by
      by_contra hend
      refine hlast ((blankAt_append_right (by omega)).mpr
        ((blankAt_append_right (by omega)).mpr ?_))
      exact blankAt_of_forall hb (by omega)
    rw [List.drop_length_add_append] at h
    refine ⟨i, rfl, List.prefix_of_prefix_length_le h
      (List.IsPrefix.drop (List.prefix_append text b) i) ?_⟩
    rw [List.length_drop]
    omega
  · rintro ⟨i, rfl, h⟩
    rw [List.drop_length_add_append]
    exact h.trans (List.IsPrefix.drop (List.prefix_append text b) i)

/-- What is bare is left when blanks are taken off a text that it stands in. -/
theorem Bare.infix_trim (hs : Bare s) (h : s <+: cs.drop j) : s <:+: Text.trim Text.isBlank cs := by
  obtain ⟨a, b, heq, ha, hb⟩ := Text.exists_append_trim Text.isBlank cs
  rw [heq, hs.prefix_drop_iff ha hb] at h
  obtain ⟨i, _, h⟩ := h
  exact h.isInfix.trans (List.drop_suffix i _).isInfix

/-! ## Windows cut short -/

/-- The text goes on behind the window around the place `i`, and the last blank of the window, where
it is cut, comes before the end of a part of `n` characters there. -/
structure CutShort (text : List Char) (i n length : Nat) : Prop where
  goesOn : start text i + length < text.length
  broken : ∃ j, start text i < j ∧ j < i + n ∧ BlankAt text j
  unbroken : ∀ j, i + n ≤ j → j < start text i + length → ¬ BlankAt text j

/-- A window that has room for a part ends before it does iff it is `CutShort`. -/
theorem lt_iff_cutShort (h : stop? text (start text i) length = some last)
    (hn : i + n ≤ text.length)
    (hlong : lead + n ≤ length) : last < i + n ↔ CutShort text i n length := by
  have hstart : i ≤ start text i + lead := by
    rcases start_cases text i with ⟨h, _⟩ | ⟨_, _, h, _⟩ <;> omega
  rcases stop?_cases h with ⟨hfull, hwhole⟩ | ⟨hmore, hfirst, hlast, hblank, hbehind⟩
  · constructor
    · intro hlt
      omega
    · rintro ⟨hmore, ⟨j, hj, hjn, hblank⟩, _⟩
      rcases hwhole with hwhole | hnone
      · omega
      · exact absurd hblank (hnone j hj (by omega))
  · constructor
    · exact fun hlt => ⟨hmore, ⟨last, hfirst, hlt, hblank⟩, fun j hj => hbehind j (by omega)⟩
    · intro hcut
      by_contra hle
      exact hcut.unbroken last (by omega) hlast hblank

/-- The window cuts a word short iff it begins with the text, a blank stands before the word, and
the word goes on behind the window. -/
theorem cutShort_iff_of_word (htext : ¬ BlankAt text 0)
    (hword : ∀ j, i ≤ j → j < i + n → ¬ BlankAt text j) :
    CutShort text i n length ↔ i ≤ lead ∧ length < text.length ∧
      (∃ j < i, BlankAt text j) ∧ ∀ j, i ≤ j → j < length → ¬ BlankAt text j := by
  constructor
  · rintro ⟨hmore, ⟨j, hj, hjn, hblank⟩, hnone⟩
    have hji : j < i := Nat.lt_of_not_le fun hij => hword j hij hjn hblank
    rcases start_cases text i with ⟨hi, hstart⟩ | ⟨_, _, _, hbetween⟩
    · rw [hstart] at hmore hnone
      refine ⟨hi, by omega, ⟨j, hji, hblank⟩, fun k hk hkl => ?_⟩
      by_cases hkn : k < i + n
      · exact hword k hk hkn
      · exact hnone k (by omega) (by omega)
    · -- A window that begins later begins behind the last blank before the word.
      exact absurd hblank (hbetween j (by omega) hji)
  · rintro ⟨hi, hmore, ⟨j, hj, hblank⟩, hnone⟩
    have hstart : start text i = 0 := if_pos hi
    have hpos : 0 < j := Nat.pos_of_ne_zero fun h => htext (h ▸ hblank)
    rw [← Nat.zero_add length, ← hstart] at hmore
    refine ⟨hmore, ⟨j, by omega, by omega, hblank⟩, fun k hk hkl => hnone k (by omega) (by omega)⟩

/-! ## Parts of the lower-case text -/

/-- The part of `n` characters at the place `i` of a text. -/
def part (text : List Char) (i n : Nat) : List Char := (text.drop i).take n

theorem length_part (h : i + n ≤ text.length) : (part text i n).length = n := by
  rw [part, List.length_take, List.length_drop]
  omega

theorem mem_of_mem_part {c : Char} (h : c ∈ part text i n) : c ∈ text :=
  List.mem_of_mem_drop (List.mem_of_mem_take h)

/-- Blanks of a `part` stand in the text, `i` further on. -/
theorem blankAt_part : BlankAt (part text i n) j ↔ j < n ∧ BlankAt text (i + j) := by
  rw [part, blankAt_take, blankAt_drop]

section

variable (single : ∀ c ∈ text, (Text.lowerChar c).length = 1)

include single

/-- Lower case has its blanks where the text has them. -/
theorem blankAt_lowerWords : BlankAt (Text.lowerWords text) i ↔ BlankAt text i := by
  rw [blankAt_iff_map, blankAt_iff_map, Text.lowerWords, Text.map_isBlank_lowerWordsFrom [] single]

/-- Lower case is as long as the text, as running text. -/
theorem length_lowerWords : (Text.lowerWords text).length = text.length := by
  simpa [Text.lowerWords] using congrArg List.length (Text.map_isBlank_lowerWordsFrom [] single)

/-- Lower case is as long as the text, character by character. -/
theorem length_lowerEach : (Text.lowerEach text).length = text.length := by
  rw [← Text.length_lowerWordsFrom text [], ← Text.lowerWords, length_lowerWords single]

section

variable (h : t <+: (Text.lowerWords text).drop i)

include h

/-- Blanks of a term are those of the part that it was found in. -/
theorem blankAt_of_found (hj : j < t.length) : BlankAt text (i + j) ↔ BlankAt t j := by
  rw [← blankAt_lowerWords single, blankAt_of_standing h hj]

/-- A term that was found ends within the text. -/
theorem le_length_of_found (ht : 0 < t.length) : i + t.length ≤ text.length := by
  have hle := h.length_le
  rw [List.length_drop, length_lowerWords single] at hle
  omega

/-- The part that a bare term was found in is bare. -/
theorem Bare.part (ht : Bare t) : Bare (part text i t.length) := by
  have hlength := length_part (le_length_of_found single h ht.pos)
  refine ⟨by rw [hlength]; exact ht.pos, ?_, ?_⟩
  · rw [blankAt_part, blankAt_of_found single h ht.pos]
    exact fun hblank => ht.first hblank.2
  · rw [hlength, blankAt_part, blankAt_of_found single h (Nat.sub_lt ht.pos Nat.one_pos)]
    exact fun hblank => ht.last hblank.2

/-- A term that was found in a part without capital sigmas is what the part is character by
character. -/
theorem eq_lowerEach_part (ht : 0 < t.length) (hsigma : 'Σ' ∉ part text i t.length) :
    t = Text.lowerEach (part text i t.length) := by
  have hn := le_length_of_found single h ht
  have hsplit : text = text.take i ++ part text i t.length ++ (text.drop i).drop t.length := by
    rw [List.append_assoc, part, List.take_append_drop, List.take_append_drop]
  obtain ⟨x, y, hx, heq⟩ :=
    Text.exists_lowerWords_eq hsigma (text.take i) ((text.drop i).drop t.length)
  have hfront : x.length = i := by
    rw [hx, length_lowerEach fun c hc => single c (List.mem_of_mem_take hc), List.length_take]
    omega
  have hlength : (Text.lowerEach (part text i t.length)).length = t.length := by
    rw [length_lowerEach fun c hc => single c (mem_of_mem_part hc), length_part hn]
  have hdrop : (Text.lowerWords text).drop i = Text.lowerEach (part text i t.length) ++ y := by
    rw [← hsplit] at heq
    rw [heq, List.append_assoc, List.drop_left' hfront]
  rw [hdrop] at h
  exact (List.prefix_of_prefix_length_le h (List.prefix_append _ y) hlength.ge).eq_of_length
    hlength.symm

end

end

/-! ## The term shown -/

/-- What the excerpt `e` of a text shows of a term `t` that stands at the place `i` of the
lower-case text.  Unless the window is cut short, the excerpt has the part of the text that the term
was found in, and has the term in lower case if that part has no capital sigma. -/
structure Shows (text t : List Char) (i length : Nat) (e : String) : Prop where
  whole : ¬ CutShort text i t.length length → part text i t.length <:+: e.toList
  lower : ¬ CutShort text i t.length length → 'Σ' ∉ part text i t.length →
    t <:+: (Text.lower e).toList
  cut : CutShort text i t.length length →
    ∃ last < i + t.length, e.toList = shown text (start text i) last
  word : (∀ c ∈ t, Text.isBlank c = false) →
    (CutShort text i t.length length ↔ i ≤ 50 ∧ length < text.length ∧
    (∃ j < i, BlankAt text j) ∧ ∀ j, i ≤ j → j < length → ¬ BlankAt text j)

/-- The window around a term that was found shows it as `Shows` says. -/
theorem shows_of_found (single : ∀ c ∈ text, (Text.lowerChar c).length = 1) (htext : Bare text)
    (ht : Bare t)
    (h : t <+: (Text.lowerWords text).drop i) (hlong : lead + t.length ≤ length)
    (hstop : stop? text (start text i) length = some last) :
    Shows text t i length (String.ofList (shown text (start text i) last)) := by
  have hcut := lt_iff_cutShort hstop (le_length_of_found single h ht.pos) hlong
  have hwhole : ¬ CutShort text i t.length length →
      part text i t.length <:+: shown text (start text i) last := by
    intro hwhole
    have hlast : i + t.length ≤ last := Nat.le_of_not_lt (mt hcut.mp hwhole)
    have hwindow :
      part text i t.length <+: ((text.take last).drop (start text i)).drop (i - start text i) := by
      rw [part, List.drop_drop, Nat.add_sub_cancel' (start_le text i), List.drop_take,
        List.take_isPrefix_take]
      omega
    exact ((ht.part single h).infix_trim hwindow).trans (List.infix_append _ _ _)
  refine ⟨?_, ?_, ?_, ?_⟩
  · rwa [String.toList_ofList]
  -- Without a capital sigma the part has its own lower case wherever it is shown.
  · intro hnot hsigma
    obtain ⟨a, b, heq⟩ := hwhole hnot
    obtain ⟨x, y, _, hlower⟩ := Text.exists_lowerWords_eq hsigma a b
    rw [Text.toList_lower, String.toList_ofList, ← heq, hlower,
      ← eq_lowerEach_part single h ht.pos hsigma]
    exact List.infix_append _ _ _
  · exact fun hshort => ⟨last, hcut.mpr hshort, String.toList_ofList⟩
  · intro hword
    refine cutShort_iff_of_word htext.first fun k hk hkn => ?_
    obtain ⟨m, rfl⟩ := Nat.exists_eq_add_of_le hk
    rw [blankAt_of_found single h (by omega)]
    exact not_blankAt_of_forall hword

/-- How many blanks a text begins with. -/
def leading (body : String) : Nat := (body.toList.takeWhile Text.isBlank).length

/-- Bare terms stand first in the lower case of a text where they do in that of its trimmed text,
the blanks that the text begins with counted. -/
theorem standsFirst_lower_iff {body : String} (bare : ∀ t ∈ terms, Bare t) :
    StandsFirst terms (Text.lower body).toList t j ↔
      ∃ i, j = leading body + i ∧
      StandsFirst terms (Text.lowerWords (Text.trimmed body).toList) t i := by
  obtain ⟨b, heq, hb⟩ := Text.exists_takeWhile_append_trim Text.isBlank body.toList
  have ha : ∀ c ∈ body.toList.takeWhile Text.isBlank, Text.isBlank c = true :=
    fun c hc => List.mem_takeWhile_imp hc
  have hlower : (Text.lower body).toList = body.toList.takeWhile Text.isBlank ++
      Text.lowerWords (Text.trimmed body).toList ++ b := by
    rw [Text.toList_lower, Text.toList_trimmed, ← Text.lowerWords_append_blanks ha hb, ← heq]
  have hstands : ∀ s ∈ terms, ∀ k, s <+: (Text.lower body).toList.drop k ↔
      ∃ i, k = leading body + i ∧ s <+: (Text.lowerWords (Text.trimmed body).toList).drop i := by
    intro s hs k
    rw [hlower, (bare s hs).prefix_drop_iff ha hb, leading]
  constructor
  · rintro ⟨ht, hhere, hfirst⟩
    obtain ⟨i, rfl, hi⟩ := (hstands t ht j).mp hhere
    exact ⟨i, rfl, ht, hi, fun s hs k hk hsk =>
      hfirst s hs (leading body + k) (by omega) ((hstands s hs _).mpr ⟨k, rfl, hsk⟩)⟩
  · rintro ⟨i, rfl, ht, hhere, hfirst⟩
    refine ⟨ht, (hstands t ht _).mpr ⟨i, rfl, hhere⟩, fun s hs k hk hsk => ?_⟩
    obtain ⟨m, rfl, hm⟩ := (hstands s hs k).mp hsk
    exact hfirst s hs m (by omega) hm

/-- A term that is its own trimmed text is `Bare`. -/
theorem bare_of_nonBlank? {s t : String} (h : Text.nonBlank? s = some t) : Bare t.toList := by
  obtain rfl := Text.eq_trimmed_of_nonBlank? h
  rw [Text.nonBlank?, Option.ite_none_left_eq_some] at h
  rw [Text.toList_trimmed]
  refine bare_trim fun hnil => h.1 ?_
  rw [← Text.toList_trimmed] at hnil
  simpa using hnil

/-- Let every character of a text have one form in lower case, let one of the `terms` be in the text
in lower case, and let the window have room for each of them.  Then there is an excerpt, and it
shows every term that stands where the first one does, unless the window is cut short there. -/
theorem create?_shows {body : String} {terms : List String} {length : Nat}
    (single : ∀ c ∈ body.toList, (Text.lowerChar c).length = 1)
    (bare : ∀ t ∈ terms, Text.nonBlank? t = some t)
    (occurs : ∃ t ∈ terms, t.toList <:+: (Text.lower body).toList)
    (long : ∀ t ∈ terms, 50 + t.toList.length ≤ length)
    (fits : body.toList.length + length < 18446744073709551616) :
    ∃ e i, create? body terms length = some (some e) ∧
      (∃ t, StandsFirst (terms.map (·.toList)) (Text.lower body).toList t (leading body + i)) ∧
      ∀ t, StandsFirst (terms.map (·.toList)) (Text.lower body).toList t (leading body + i) →
        Shows (Text.trimmed body).toList t i length e := by
  have hbare : ∀ t ∈ terms.map (·.toList), Bare t := by
    intro t ht
    obtain ⟨s, hs, rfl⟩ := List.mem_map.mp ht
    exact bare_of_nonBlank? (bare s hs)
  have hlong : ∀ t ∈ terms.map (·.toList), lead + t.length ≤ length := by
    intro t ht
    obtain ⟨s, hs, rfl⟩ := List.mem_map.mp ht
    exact long s hs
  have hsingle : ∀ c ∈ (Text.trimmed body).toList, (Text.lowerChar c).length = 1 := by
    rw [Text.toList_trimmed]
    exact fun c hc => single c (Text.mem_of_mem_trim hc)
  obtain ⟨t, ht, x, y, heq⟩ := occurs
  have hhere : t.toList <+: (Text.lower body).toList.drop x.length := by
    rw [← heq, List.append_assoc, List.drop_left]
    exact List.prefix_append _ _
  -- The first term stands in the trimmed text, by as much nearer as blanks are taken off.
  obtain ⟨s, j, hs⟩ := exists_standsFirst (List.mem_map.mpr ⟨t, ht, rfl⟩) hhere
  obtain ⟨i, rfl, hi⟩ := (standsFirst_lower_iff hbare).mp hs
  have hpos := (hbare s hi.mem).pos
  have hn := le_length_of_found hsingle hi.here hpos
  have hne : (Text.trimmed body).toList ≠ [] := List.ne_nil_of_length_pos (by omega)
  have htext : Bare (Text.trimmed body).toList := by
    rw [Text.toList_trimmed] at hne ⊢
    exact bare_trim hne
  have hplace : place (terms.map (·.toList)) (Text.trimmed body).toList = i := by
    rw [place, firstPlace?_eq_some_iff.mpr ⟨s, hi⟩]
    exact Nat.min_eq_left (by omega)
  have hsome := create?_isSome fits terms
  rw [create?_of_ne_nil hne, hplace, Option.isSome_map, Option.isSome_iff_exists] at hsome
  obtain ⟨last, hlast⟩ := hsome
  refine ⟨_, i, by rw [create?_of_ne_nil hne, hplace, hlast]; rfl, ⟨s, hs⟩, fun t ht => ?_⟩
  obtain ⟨k, hk, ht⟩ := (standsFirst_lower_iff hbare).mp ht
  obtain rfl : i = k := Nat.add_left_cancel hk
  exact shows_of_found hsingle htext (hbare t ht.mem) ht.here (hlong t ht.mem) hlast

/-- The excerpt of `longText` shows its term. -/
theorem create?_shows_longText :
    ∃ e i, create? longText ["budget"] 60 = some (some e) ∧
      (∃ t, StandsFirst (["budget"].map (·.toList)) (Text.lower longText).toList t
        (leading longText + i)) ∧
      ∀ t, StandsFirst (["budget"].map (·.toList)) (Text.lower longText).toList t
        (leading longText + i) →
          Shows (Text.trimmed longText).toList t i 60 e := by
  have hsingle : longText.toList.all (fun c => (Text.lowerChar c).length == 1) = true := by
    decide +kernel
  refine create?_shows (fun c hc => eq_of_beq (List.all_eq_true.mp hsingle c hc)) ?_ ?_ ?_
    (by decide +kernel)
  · simp only [List.mem_singleton, forall_eq]
    decide +kernel
  · simp only [List.mem_singleton, exists_eq_left]
    decide +kernel
  · simp only [List.mem_singleton, forall_eq]
    decide +kernel

/-- A text with one blank, close to its beginning, and a term behind that. -/
def joinedText : String := "see budget.lorem.lorem.lorem.lorem.lorem.lorem.lorem.lorem.lorem"

/-- The window has room for the term, but is cut at the blank before it: the excerpt is `see...`. -/
theorem create?_cut_short :
    (∀ c ∈ joinedText.toList, (Text.lowerChar c).length = 1) ∧
    "budget".toList <:+: (Text.lower joinedText).toList ∧ Text.lower "budget" = "budget" ∧
    50 + "budget".toList.length ≤ 60 ∧ create? joinedText ["budget"] 60 = some (some "see...") ∧
    ¬ "budget".toList <:+: (Text.lower "see...").toList := by
  have hsingle : joinedText.toList.all (fun c => (Text.lowerChar c).length == 1) = true := by
    decide +kernel
  refine ⟨fun c hc => eq_of_beq (List.all_eq_true.mp hsingle c hc), ?_⟩
  decide +kernel

end DocSearch.Excerpt
