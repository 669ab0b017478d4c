import DocSearch.Index.Excerpt
import DocSearch.Proofs.Text.LowerCase
import DocSearch.Proofs.Text.Runs
import Mathlib.Data.Nat.Find

/-!
# The window of an excerpt

`Excerpt.create?` computes a window from a place; here the computation is replaced by what it says
of the text.

* Where the first term stands is stated by `Excerpt.StandsFirst`, and the place that an excerpt is
  made for by `Excerpt.IsPlace`; `Excerpt.isPlace_place` says that this is what is computed.
* The window begins not more than fifty characters before the place, with no blank between them once
  it does not begin with the text (`Excerpt.start_cases`).
* It ends where it is full, where the text ends, or at its last blank (`Excerpt.stop?_cases`); for
  this blanks are counted from the front (`Excerpt.BlankAt`), where the program counts from behind.

From these the excerpt of every text and every length is read off (`Excerpt.create?_cases`).  There
is none for a blank text, and none either if the sum of the beginning and the length is no 64-bit
word (`Excerpt.create?_beyond_words`).
-/

namespace DocSearch.Excerpt

variable {s t text a b cs : List Char} {terms : List (List Char)} {i j : Nat}

/-! ## Where terms stand -/

/-- A term is found at `i` iff it stands there and not before. -/
theorem find?_eq_some_iff : ∀ {text : List Char} {i : Nat}, find? t text = some i ↔
    t <+: text.drop i ∧ ∀ j < i, ¬ t <+: text.drop j
  | [], i => by
    rw [find?]
    by_cases ht : t = []
    · subst ht
      cases i with
      | zero => simp
      | succ i =>
        exact ⟨fun h => by simp at h, fun h => absurd List.nil_prefix (h.2 0 (Nat.succ_pos i))⟩
    · simp [ht]
  | c :: cs, i => by
    rw [find?]
    by_cases hc : t <+: c :: cs
    · rw [if_pos (List.isPrefixOf_iff_prefix.mpr hc)]
      cases i with
      | zero => simp [hc]
      | succ i => exact ⟨fun h => by simp at h, fun h => absurd hc (h.2 0 (Nat.succ_pos i))⟩
    · rw [if_neg (mt List.isPrefixOf_iff_prefix.mp hc)]
      cases i with
      | zero => simp [hc]
      | succ i =>
        -- It does not stand here, so its first place is the one behind this character.
        simp only [Option.map_eq_some_iff, Nat.add_right_cancel_iff, exists_eq_right,
          find?_eq_some_iff, List.drop_succ_cons]
        refine and_congr_right fun _ =>
          ⟨fun hfirst j hj => ?_, fun hfirst j hj => hfirst (j + 1) (by omega)⟩
        cases j with
        | zero => exact hc
        | succ j => exact hfirst j (by omega)

/-- A term that stands somewhere is found there or before. -/
theorem exists_find?_le (h : t <+: text.drop j) : ∃ i ≤ j, find? t text = some i := by
  classical
  have hsome : ∃ i, t <+: text.drop i := ⟨j, h⟩
  exact ⟨Nat.find hsome, Nat.find_min' hsome h,
    find?_eq_some_iff.mpr ⟨Nat.find_spec hsome, fun _ => Nat.find_min hsome⟩⟩

/-- The term `t` stands at the place `i` of a text, and none of the `terms` stands before it. -/
structure StandsFirst (terms : List (List Char)) (text t : List Char) (i : Nat) : Prop where
  mem : t ∈ terms
  here : t <+: text.drop i
  first : ∀ s ∈ terms, ∀ j < i, ¬ s <+: text.drop j

/-- The first place of some terms is where one of them stands first. -/
theorem firstPlace?_eq_some_iff : firstPlace? terms text = some i ↔ ∃ t,
    StandsFirst terms text t i := by
  rw [firstPlace?, List.min?_eq_some_iff]
  simp only [List.mem_filterMap]
  constructor
  · rintro ⟨⟨t, ht, hfind⟩, hleast⟩
    refine ⟨t, ht, (find?_eq_some_iff.mp hfind).1, fun s hs j hj hhere => ?_⟩
    obtain ⟨k, hk, hfind'⟩ := exists_find?_le hhere
    have := hleast k ⟨s, hs, hfind'⟩
    omega
  · rintro ⟨t, ht, hhere, hfirst⟩
    refine ⟨⟨t, ht, find?_eq_some_iff.mpr ⟨hhere, hfirst t ht⟩⟩, fun k ⟨s, hs, hfind⟩ => ?_⟩
    by_contra hk
    exact hfirst s hs k (by omega) (find?_eq_some_iff.mp hfind).1

/-- If one of the `terms` stands somewhere, one of them stands first. -/
theorem exists_standsFirst (ht : t ∈ terms) (h : t <+: text.drop j) : ∃ s i,
    StandsFirst terms text s i := by
  cases hplace : firstPlace? terms text with
  | some i =>
    obtain ⟨s, hs⟩ := firstPlace?_eq_some_iff.mp hplace
    exact ⟨s, i, hs⟩
  | none =>
    obtain ⟨i, _, hfind⟩ := exists_find?_le h
    rw [firstPlace?, List.min?_eq_none_iff] at hplace
    have hmem : i ∈ terms.filterMap (find? · text) := List.mem_filterMap.mpr ⟨t, ht, hfind⟩
    rw [hplace] at hmem
    cases hmem

/-- The place that an excerpt of a text is made for: where the first term stands in the lower-case
text, or the end of the text if this is beyond it; its beginning if no term stands in it. -/
inductive IsPlace (terms : List (List Char)) (text : List Char) : Nat → Prop
  | found {t : List Char} {i : Nat} (h : StandsFirst terms (Text.lowerWords text) t i) :
      IsPlace terms text (min i text.length)
  | missing (h : ∀ t ∈ terms, ∀ i, ¬ t <+: (Text.lowerWords text).drop i) : IsPlace terms text 0

/-- The place that is computed is that of `IsPlace`. -/
theorem isPlace_place (terms : List (List Char)) (text : List Char) :
    IsPlace terms text (place terms text) := by
  unfold place
  cases hplace : firstPlace? terms (Text.lowerWords text) with
  | some i =>
    obtain ⟨t, ht⟩ := firstPlace?_eq_some_iff.mp hplace
    exact .found ht
  | none =>
    refine .missing fun t ht i hhere => ?_
    obtain ⟨s, j, hs⟩ := exists_standsFirst ht hhere
    rw [firstPlace?_eq_some_iff.mpr ⟨s, hs⟩] at hplace
    cases hplace

/-- The place is one of the text, or its end. -/
theorem place_le (terms : List (List Char)) (text : List Char) :
    place terms text ≤ text.length := by
  unfold place
  split
  · exact Nat.min_le_right _ _
  · exact Nat.zero_le _

/-! ## Blanks of a text -/

/-- A blank stands at the place `i` of a text. -/
def BlankAt (text : List Char) (i : Nat) : Prop := ∃ c, text[i]? = some c ∧ Text.isBlank c = true

/-- Blanks of the first `n` characters are those of the text before `n`. -/
theorem blankAt_take {n : Nat} : BlankAt (text.take n) i ↔ i < n ∧ BlankAt text i := by
  unfold BlankAt
  rw [List.getElem?_take]
  split
  · simp [*]
  · simp [*]

/-- Blanks of a text without its first `n` characters stand `n` further in the text. -/
theorem blankAt_drop {n : Nat} : BlankAt (text.drop n) i ↔ BlankAt text (n + i) := by
  rw [BlankAt, List.getElem?_drop, BlankAt]

/-- Where blanks stand depends on the classes of the characters only. -/
theorem blankAt_iff_map : BlankAt text i ↔ (text.map Text.isBlank)[i]? = some true := by
  simp [BlankAt]

theorem blankAt_append_left (h : i < a.length) : BlankAt (a ++ b) i ↔ BlankAt a i := by
  rw [BlankAt, List.getElem?_append_left h, BlankAt]

theorem blankAt_append_right (h : a.length ≤ i) :
    BlankAt (a ++ b) i ↔ BlankAt b (i - a.length) := by
  rw [BlankAt, List.getElem?_append_right h, BlankAt]

/-- A text of blanks has one at every place. -/
theorem blankAt_of_forall (h : ∀ c ∈ a, Text.isBlank c = true) (hi : i < a.length) : BlankAt a i :=
  ⟨a[i], List.getElem?_eq_getElem hi, h _ (List.getElem_mem hi)⟩

/-- A text without blanks has one at no place. -/
theorem not_blankAt_of_forall (h : ∀ c ∈ a, Text.isBlank c = false) : ¬ BlankAt a i := by
  rintro ⟨c, hc, hblank⟩
  rw [h c (List.mem_of_getElem? hc)] at hblank
  cases hblank

/-- Where `s` stands, the text has the blanks of `s`. -/
theorem blankAt_of_standing (h : s <+: text.drop j) (hi : i < s.length) :
    BlankAt text (j + i) ↔ BlankAt s i := by
  obtain ⟨r, hr⟩ := h
  rw [← blankAt_drop, ← hr, blankAt_append_left hi]

theorem BlankAt.lt_length (h : BlankAt text i) : i < text.length := by
  obtain ⟨c, hc, _⟩ := h
  exact (List.getElem?_eq_some_iff.mp hc).1

/-- The last place of a class is that of the last character, if this is of the class. -/
theorem lastPlace?_concat (p : Char → Bool) (cs : List Char) (c : Char) :
    lastPlace? p (cs ++ [c]) = if p c = true then some cs.length else lastPlace? p cs := by
  unfold lastPlace?
  rw [List.reverse_append, List.reverse_singleton, List.singleton_append, List.findIdx?_cons]
  by_cases hc : p c = true
  · simp [hc]
  · simp only [hc, if_neg, Bool.false_eq_true, not_false_eq_true]
    cases hfind : cs.reverse.findIdx? p with
    | none => rfl
    | some i => simp; omega

/-- A blank of a text with one more character `c` is one of the text, or `c`. -/
theorem blankAt_concat {c : Char} :
    BlankAt (cs ++ [c]) i ↔ BlankAt cs i ∨ (i = cs.length ∧ Text.isBlank c = true) := by
  unfold BlankAt
  rcases Nat.lt_trichotomy i cs.length with h | h | h
  · rw [List.getElem?_append_left h]
    simp [Nat.ne_of_lt h]
  · subst h
    simp
  · rw [List.getElem?_eq_none (by simp; omega), List.getElem?_eq_none (by omega)]
    simp [Nat.ne_of_gt h]

/-- The last blank is one, and there is none behind it; by induction from the end. -/
theorem of_lastPlace?_eq_some (h : lastPlace? Text.isBlank cs = some i) :
    BlankAt cs i ∧ ∀ j, i < j → ¬ BlankAt cs j := by
  induction cs using List.reverseRecOn with
  | nil => cases h
  | append_singleton cs c ih =>
    rw [lastPlace?_concat] at h
    simp only [blankAt_concat]
    split at h
    · rename_i hc
      cases h
      refine ⟨.inr ⟨rfl, hc⟩, fun j hj hblank => ?_⟩
      rcases hblank with hblank | ⟨rfl, _⟩
      · exact absurd hblank.lt_length (by omega)
      · omega
    · rename_i hc
      obtain ⟨hblank, hlast⟩ := ih h
      exact ⟨.inl hblank, fun j hj => by simp [hlast j hj, hc]⟩

/-- Where there is no last blank, there is none. -/
theorem of_lastPlace?_eq_none (h : lastPlace? Text.isBlank cs = none) (j : Nat) :
    ¬ BlankAt cs j := by
  induction cs using List.reverseRecOn with
  | nil => rintro ⟨c, hc, _⟩; cases hc
  | append_singleton cs c ih =>
    rw [lastPlace?_concat] at h
    split at h
    · cases h
    · rename_i hc
      simp [blankAt_concat, ih h, hc]

/-! ## The window -/

/-- The window begins with the text if `place` is within the first characters.  Otherwise it begins
not more than that far before the place, and no blank stands between. -/
theorem start_cases (text : List Char) (place : Nat) :
    (place ≤ lead ∧ start text place = 0) ∨
    (lead < place ∧ start text place ≤ place ∧ place ≤ start text place + lead ∧
      ∀ j, start text place ≤ j → j < place → ¬ BlankAt text j) := by
  unfold start
  split
  · rename_i h
    exact .inl ⟨h, rfl⟩
  · rename_i h
    refine .inr ⟨by omega, ?_⟩
    split
    · rename_i i hlast
      obtain ⟨hblank, hnone⟩ := of_lastPlace?_eq_some hlast
      have hi : i < place := (blankAt_take.mp hblank).1
      have hbehind : ∀ j, i < j → j < place → ¬ BlankAt text j :=
        fun j hj hjp hblank => hnone j hj (blankAt_take.mpr ⟨hjp, hblank⟩)
      split
      · exact ⟨by omega, by omega, fun j hj => hbehind j (by omega)⟩
      · exact ⟨by omega, by omega, fun j hj => hbehind j (by omega)⟩
    · rename_i hlast
      refine ⟨by omega, by omega, fun j _ hjp hblank => ?_⟩
      exact of_lastPlace?_eq_none hlast j (blankAt_take.mpr ⟨hjp, hblank⟩)

/-- The window begins at the place or before it. -/
theorem start_le (text : List Char) (place : Nat) : start text place ≤ place := by
  rcases start_cases text place with ⟨_, h⟩ | ⟨_, h, _⟩ <;> omega

/-- There is no end of a window iff it would be no 64-bit word. -/
theorem stop?_eq_none_iff {first length : Nat} :
    stop? text first length = none ↔ 18446744073709551616 ≤ first + length := by
  unfold stop?
  split
  · simp [*]
  · dsimp only
    split
    · split <;> simp [*]
    · simp [*]

/-- The window ends where it is full or the text ends; if the text goes on, at a blank behind which
there is no other one in it, unless there is none. -/
theorem stop?_cases {first length last : Nat} (h : stop? text first length = some last) :
    (last = min (first + length) text.length ∧
      (text.length ≤ first + length ∨ ∀ j, first < j → j < first + length → ¬ BlankAt text j)) ∨
    (first + length < text.length ∧ first < last ∧ last < first + length ∧ BlankAt text last ∧
      ∀ j, last < j → j < first + length → ¬ BlankAt text j) := by
  have hwindow : ∀ j, BlankAt ((text.take (min (first + length) text.length)).drop first) j ↔
      first + j < min (first + length) text.length ∧ BlankAt text (first + j) := by
    intro j
    rw [blankAt_drop, blankAt_take]
  unfold stop? at h
  split at h
  · cases h
  · dsimp only at h
    split at h
    -- The text goes on: what counts is the last blank of the window, if there is one.
    · rename_i hmore
      split at h
      · rename_i i hlast
        obtain ⟨hblank, hnone⟩ := of_lastPlace?_eq_some hlast
        obtain ⟨hi, hblank⟩ := (hwindow i).mp hblank
        have hbehind : ∀ j, first + i < j → j < first + length → ¬ BlankAt text j := by
          intro j hj hjl hblank
          refine hnone (j - first) (by omega) ((hwindow _).mpr ⟨by omega, ?_⟩)
          rwa [Nat.add_sub_cancel' (by omega)]
        split at h
        · cases h
          exact .inr ⟨by omega, by omega, by omega, hblank, hbehind⟩
        · cases h
          exact .inl ⟨rfl, .inr fun j hj => hbehind j (by omega)⟩
      · rename_i hlast
        cases h
        refine .inl ⟨rfl, .inr fun j hj hjl hblank => ?_⟩
        refine of_lastPlace?_eq_none hlast (j - first) ((hwindow _).mpr ⟨by omega, ?_⟩)
        rwa [Nat.add_sub_cancel' (by omega)]
    · cases h
      exact .inl ⟨rfl, .inl (by omega)⟩

/-! ## The excerpt -/

/-- What is shown of a window: its characters from `first` to `last` without the blanks around them,
with dots on the sides where the text goes on. -/
def shown (text : List Char) (first last : Nat) : List Char :=
  dots (0 < first) ++ Text.trim Text.isBlank ((text.take last).drop first) ++
    dots (last < text.length)

variable {body : String} {length : Nat}

/-- A blank text has no excerpt, whatever is looked for. -/
theorem create?_of_blank (h : (Text.trimmed body).toList = []) (terms : List String)
    (length : Nat) :
    create? body terms length = some none := by
  rw [Text.toList_trimmed] at h
  rw [create?, h]
  rfl

/-- A text that is not blank is shown in the window around the place. -/
theorem create?_of_ne_nil (h : (Text.trimmed body).toList ≠ []) (terms : List String)
    (length : Nat) :
    create? body terms length =
      (stop? (Text.trimmed body).toList (start (Text.trimmed body).toList
        (place (terms.map (·.toList)) (Text.trimmed body).toList)) length).map fun last =>
          some (String.ofList (shown (Text.trimmed body).toList (start (Text.trimmed body).toList
            (place (terms.map (·.toList)) (Text.trimmed body).toList)) last)) := by
  rw [Text.toList_trimmed] at h ⊢
  rw [create?]
  exact if_neg (by simpa using h)

/-- A text that is no longer than a 64-bit word allows, with the `length` of excerpts, has an
excerpt. -/
theorem create?_isSome (h : body.toList.length + length < 18446744073709551616)
    (terms : List String) : (create? body terms length).isSome = true := by
  by_cases hblank : (Text.trimmed body).toList = []
  · rw [create?_of_blank hblank]
    rfl
  · rw [create?_of_ne_nil hblank, Option.isSome_map, Option.isSome_iff_ne_none, ne_eq,
      stop?_eq_none_iff]
    have htrim := Text.length_trim_le Text.isBlank body.toList
    rw [← Text.toList_trimmed] at htrim
    have hplace := place_le (terms.map (·.toList)) (Text.trimmed body).toList
    have hstart :=
      start_le (Text.trimmed body).toList (place (terms.map (·.toList)) (Text.trimmed body).toList)
    omega

/-- Every text has one of these:
* it is blank, and there is no excerpt to be shown;
* the sum of the beginning of the window and its `length` is no 64-bit word, and there is no window;
* the excerpt shows the characters from the beginning of the window to its end, which are at most
  `length`, both within the text, with dots in front unless the window begins with the text and
  behind unless it ends with it.

The beginning is at most fifty characters before the place of the first term, and at the beginning
of the text if the place is within the first fifty characters. -/
theorem create?_cases (body : String) (terms : List String) (length : Nat) :
    ((∀ c ∈ body.toList, Text.isBlank c = true) ∧ create? body terms length = some none) ∨
    ((∃ c ∈ body.toList, Text.isBlank c = false) ∧ ∃ hit first,
      IsPlace (terms.map (·.toList)) (Text.trimmed body).toList hit ∧
      hit ≤ (Text.trimmed body).toList.length ∧
      first ≤ hit ∧ hit ≤ first + 50 ∧ (0 < first → 50 < hit) ∧
      ((18446744073709551616 ≤ first + length ∧ create? body terms length = none) ∨
        (first + length < 18446744073709551616 ∧ ∃ last, first ≤ last ∧
          last ≤ (Text.trimmed body).toList.length ∧
          last - first ≤ length ∧ create? body terms length =
            some (some (String.ofList (shown (Text.trimmed body).toList first last)))))) := by
  by_cases hblank : (Text.trimmed body).toList = []
  · refine .inl ⟨?_, create?_of_blank hblank terms length⟩
    rwa [Text.toList_trimmed, Text.trim_eq_nil_iff] at hblank
  · refine .inr ⟨?_, ?_⟩
    · rw [Text.toList_trimmed, Text.trim_eq_nil_iff] at hblank
      simpa using hblank
    · have hcreate := create?_of_ne_nil hblank terms length
      -- From here on only the trimmed text matters.
      generalize (Text.trimmed body).toList = text at hcreate ⊢
      have hplace := place_le (terms.map (·.toList)) text
      have hle := start_le text (place (terms.map (·.toList)) text)
      refine ⟨_, _, isPlace_place _ text, hplace, hle, ?_, ?_, ?_⟩
      · rcases start_cases text (place (terms.map (·.toList)) text) with ⟨h, _⟩ | ⟨_, _, h, _⟩
        · exact Nat.le_trans h (Nat.le_add_left _ _)
        · exact h
      · rcases start_cases text (place (terms.map (·.toList)) text) with ⟨_, h⟩ | ⟨h, _⟩
        · intro hpos
          omega
        · exact fun _ => h
      · cases hstop : stop? text (start text (place (terms.map (·.toList)) text)) length with
        | none =>
          rw [hstop] at hcreate
          exact .inl ⟨stop?_eq_none_iff.mp hstop, hcreate⟩
        | some last =>
          rw [hstop] at hcreate
          have hwords := mt stop?_eq_none_iff.mpr (by rw [hstop]; exact Option.some_ne_none last)
          refine .inr ⟨by omega, last, ?_, ?_, ?_, hcreate⟩
          · rcases stop?_cases hstop with ⟨h, _⟩ | ⟨_, h, _⟩ <;> omega
          · rcases stop?_cases hstop with ⟨h, _⟩ | ⟨_, _, h, _⟩ <;> omega
          · rcases stop?_cases hstop with ⟨h, _⟩ | ⟨_, _, h, _⟩ <;> omega

/-- A text in which a word stands behind the first fifty characters. -/
def longText : String :=
  "lorem ipsum lorem ipsum lorem ipsum lorem ipsum lorem ipsum budget overview"

/-- A text that is not blank has no excerpt of the greatest `length`: the window would end beyond
the 64-bit words. -/
theorem create?_beyond_words :
    (∃ c ∈ longText.toList, Text.isBlank c = false) ∧
    create? longText ["budget"] 18446744073709551615 = none ∧
    create? longText ["budget"] 1000 = some (some "...budget overview") :=
  ⟨⟨'l', by decide +kernel, by decide +kernel⟩, by decide +kernel, by decide +kernel⟩

end DocSearch.Excerpt
