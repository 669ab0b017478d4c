import DocSearch.Proofs.Text.LowerCase
import DocSearch.Proofs.Text.Runs

/-!
# Lower case of the parts of a text

Whether a sigma ends a word depends on what stands around it, as far as the next character that is
not passed over.  A character that is not passed over and has no case itself (`PartsCase`) therefore
parts a text: what is in front of it and what is behind it have the lower case that they have alone
(`lowerWords_append_cons`).

* So if both forms of lower case agree on a text, they agree on its parts
  (`lowerWords_eq_of_isParted`): on its words (`isParted_of_mem_words`), on its pieces between
  commas (`isParted_of_mem_pieces`) and on what is left between the blanks around it
  (`isParted_trimmed`).
* Blanks are such characters, and stay what they are (`lowerWords_append_blanks`).
* A part without capital sigmas has one form wherever it stands (`exists_lowerWords_eq`).
-/

namespace DocSearch.Text

/-- A character that words do not go on behind, for the purpose of case. -/
structure PartsCase (c : Char) : Prop where
  uncased : isCased c = false
  seen : isCaseIgnorable c = false

instance (c : Char) : Decidable (PartsCase c) :=
  decidable_of_iff (isCased c = false ∧ isCaseIgnorable c = false)
    ⟨fun h => ⟨h.1, h.2⟩, fun h => ⟨h.uncased, h.seen⟩⟩

theorem meetsCased_cons (c : Char) (cs : List Char) :
    meetsCased (c :: cs) = if isCaseIgnorable c then meetsCased cs else isCased c := by
  by_cases hc : isCaseIgnorable c = true
  · simp [meetsCased, hc]
  · simp [meetsCased, hc]

namespace PartsCase

variable {s : Char} (hs : PartsCase s)

include hs

theorem ne_sigma : s ≠ 'Σ' := by
  rintro rfl
  exact absurd hs.uncased (by decide +kernel)

/-- No cased letter is met behind the character. -/
theorem meetsCased_append_cons (a b : List Char) : meetsCased (a ++ s :: b) = meetsCased a := by
  induction a with
  | nil =>
    rw [List.nil_append, meetsCased_cons, hs.seen, if_neg Bool.false_ne_true, hs.uncased]
    rfl
  | cons c a ih => rw [List.cons_append, meetsCased_cons, meetsCased_cons, ih]

end PartsCase

/-- What was read counts only by whether a cased letter is met in it. -/
theorem lowerWordsFrom_congr : ∀ {cs x y : List Char}, meetsCased x = meetsCased y →
    lowerWordsFrom x cs = lowerWordsFrom y cs
  | [], _, _, _ => rfl
  | c :: cs, x, y, h => by
    have hrest : lowerWordsFrom (c :: x) cs = lowerWordsFrom (c :: y) cs := by
      refine lowerWordsFrom_congr ?_
      rw [meetsCased_cons, meetsCased_cons, h]
    rw [lowerWordsFrom, lowerWordsFrom, h, hrest]

section

variable {s : Char} (hs : PartsCase s)

include hs

theorem lowerWordsFrom_append_cons (b : List Char) : ∀ a before : List Char,
    lowerWordsFrom before (a ++ s :: b) = lowerWordsFrom before a ++ (lowerChar s ++ lowerWords b)
  | [], before => by
    have hrest : lowerWordsFrom (s :: before) b = lowerWordsFrom [] b := by
      refine lowerWordsFrom_congr ?_
      rw [meetsCased_cons, hs.seen, if_neg Bool.false_ne_true, hs.uncased]
      rfl
    simp [lowerWordsFrom, hs.ne_sigma, hrest, lowerWords]
  | c :: a, before => by
    rw [List.cons_append, lowerWordsFrom, lowerWordsFrom, hs.meetsCased_append_cons,
      lowerWordsFrom_append_cons b a, List.append_assoc]

/-- The texts in front of the character and behind it have the lower case that they have alone. -/
theorem lowerWords_append_cons (a b : List Char) :
    lowerWords (a ++ s :: b) = lowerWords a ++ (lowerChar s ++ lowerWords b) :=
  lowerWordsFrom_append_cons hs b a []

/-- Both forms of lower case agree on a text iff they agree on what is in front of the character and
on what is behind it. -/
theorem lowerWords_eq_append_cons_iff {a b : List Char} :
    lowerWords (a ++ s :: b) = lowerEach (a ++ s :: b) ↔
      lowerWords a = lowerEach a ∧ lowerWords b = lowerEach b := by
  have hlength : (lowerWords a).length = (lowerEach a).length := length_lowerWordsFrom a []
  rw [lowerWords_append_cons hs, lowerEach_append, lowerEach_cons]
  constructor
  · intro h
    obtain ⟨ha, hrest⟩ := List.append_inj h hlength
    exact ⟨ha, List.append_cancel_left hrest⟩
  · rintro ⟨ha, hb⟩
    rw [ha, hb]

end

/-! ## Parts of a text -/

/-- A part `w` of a text that ends, on either side, with the text or at a character that words do
not go on behind. -/
def IsParted (w cs : List Char) : Prop :=
  ∃ a b, cs = a ++ w ++ b ∧ (∀ c ∈ a.getLast?, PartsCase c) ∧ ∀ c ∈ b.head?, PartsCase c

/-- Where both forms of lower case agree, they agree on every part. -/
theorem lowerWords_eq_of_isParted {w cs : List Char} (hw : IsParted w cs)
    (hcs : lowerWords cs = lowerEach cs) :
    lowerWords w = lowerEach w := by
  obtain ⟨a, b, rfl, ha, hb⟩ := hw
  have hfront : lowerWords (a ++ w) = lowerEach (a ++ w) := by
    cases b with
    | nil => rwa [List.append_nil] at hcs
    | cons s b => exact ((lowerWords_eq_append_cons_iff (hb s rfl)).mp hcs).1
  rcases List.eq_nil_or_concat a with rfl | ⟨a, s, rfl⟩
  · exact hfront
  · have hs : PartsCase s := ha s (by simp)
    rw [List.concat_eq_append, List.append_assoc, List.singleton_append] at hfront
    exact ((lowerWords_eq_append_cons_iff hs).mp hfront).2

theorem partsCase_blanks : (blankRanges.all fun r => (List.range (r.2 - r.1 + 1)).all fun k =>
    PartsCase (Char.ofNat (r.1 + k))) = true := by
  decide +kernel

/-- Words do not go on behind a blank. -/
theorem partsCase_of_isBlank {c : Char} (h : isBlank c = true) : PartsCase c := by
  obtain ⟨r, hr, hfirst, hlast⟩ := exists_mem_of_inRanges h
  have hparts := List.all_eq_true.mp (List.all_eq_true.mp partsCase_blanks r hr) (c.toNat - r.1)
    (List.mem_range.mpr (by omega))
  rw [Nat.add_sub_cancel' hfirst, Char.ofNat_toNat] at hparts
  exact of_decide_eq_true hparts

theorem partsCase_comma : PartsCase ',' := by decide +kernel

/-- A word is parted from the rest by blanks. -/
theorem isParted_of_mem_words {s w : String} (hw : w ∈ words s) : IsParted w.toList s.toList := by
  obtain ⟨_, _, a, b, heq, ha, hb⟩ := mem_words_iff.mp hw
  have hblank : ∀ c : Char, (!isBlank c) = false → PartsCase c := by
    intro c hc
    exact partsCase_of_isBlank (by simpa using hc)
  exact ⟨a, b, heq, fun c hc => hblank c (ha c hc), fun c hc => hblank c (hb c hc)⟩

/-- So is the text between the blanks around it. -/
theorem isParted_trimmed (s : String) : IsParted (trimmed s).toList s.toList := by
  obtain ⟨a, b, heq, ha, hb⟩ := exists_append_trim isBlank s.toList
  rw [toList_trimmed]
  refine ⟨a, b, heq, fun c hc => ?_, fun c hc => ?_⟩
  · exact partsCase_of_isBlank (ha c (List.mem_of_getLast? hc))
  · exact partsCase_of_isBlank (hb c (List.mem_of_head? hc))

theorem exists_append_of_mem_intercalate {x : Char} {w : List Char} :
    ∀ {ws : List (List Char)}, w ∈ ws →
    ∃ a b, [x].intercalate ws = a ++ w ++ b ∧ (∀ c ∈ a.getLast?, c = x) ∧ ∀ c ∈ b.head?, c = x
  | [v], h => by
    obtain rfl := List.mem_singleton.mp h
    exact ⟨[], [], by simp, by simp, by simp⟩
  | v :: u :: ws, h => by
    have heq : [x].intercalate (v :: u :: ws) = v ++ x :: [x].intercalate (u :: ws) := by
      rw [List.intercalate_cons_cons, List.append_assoc, List.singleton_append]
    rcases List.mem_cons.mp h with rfl | h
    · exact ⟨[], x :: [x].intercalate (u :: ws), by simp [heq], by simp, by simp⟩
    · obtain ⟨a, b, hrest, ha, hb⟩ := exists_append_of_mem_intercalate h
      refine ⟨v ++ x :: a, b, by simp [heq, hrest], ?_, hb⟩
      cases a with
      | nil => simp
      | cons d a => simpa using ha

/-- A piece between commas is parted from the others by them. -/
theorem isParted_of_mem_pieces {s w : String} (hw : w ∈ pieces ',' s) :
    IsParted w.toList s.toList := by
  obtain ⟨cs, hcs, rfl⟩ := List.mem_map.mp hw
  obtain ⟨a, b, heq, ha, hb⟩ := exists_append_of_mem_intercalate (x := ',') hcs
  rw [List.intercalate_splitOn] at heq
  rw [String.toList_ofList]
  exact ⟨a, b, heq, fun c hc => ha c hc ▸ partsCase_comma, fun c hc => hb c hc ▸ partsCase_comma⟩

/-- Where both forms of lower case agree, they agree on every part. -/
theorem lower_eq_fold_of_isParted {s w : String} (hw : IsParted w.toList s.toList)
    (hs : lower s = fold s) :
    lower w = fold w := by
  rw [← String.toList_inj, toList_lower, toList_fold] at hs ⊢
  exact lowerWords_eq_of_isParted hw hs

/-! ## Blanks around a text -/

/-- No capital and no form of one is a blank. -/
theorem caseRuns_blankRanges : (caseRuns.all fun r => blankRanges.all fun s =>
    (s.2 < r.1 || r.2.1 < s.1) && (s.2 < r.2.2.2 || r.2.2.2 + (r.2.1 - r.1) < s.1)) = true := by
  decide +kernel

theorem isBlank_eq_false_of_apart {c : Char}
    (h : ∀ s ∈ blankRanges, s.2 < c.toNat ∨ c.toNat < s.1) :
    isBlank c = false := by
  by_contra hblank
  obtain ⟨s, hs, hfirst, hlast⟩ := exists_mem_of_inRanges (Bool.not_eq_false _ ▸ hblank)
  have := h s hs
  omega

/-- Lower case leaves blanks alone, and makes no others. -/
theorem lowerChar_eq_or (c : Char) : lowerChar c = [c] ∨
    isBlank c = false ∧ ∀ d ∈ lowerChar c, isBlank d = false := by
  by_cases hc : c = 'İ'
  · subst hc
    refine .inr ⟨by decide +kernel, fun d hd => ?_⟩
    simp only [lowerChar, if_pos, List.mem_cons, List.not_mem_nil, or_false] at hd
    rcases hd with rfl | rfl <;> decide +kernel
  · rw [lowerChar, if_neg hc]
    rcases lowerCode_eq_or c.toNat caseRuns with heq | ⟨r, hr, ⟨hfirst, hlast, _⟩, heq⟩
    · rw [heq, Char.ofNat_toNat]
      exact .inl rfl
    · have hforms := List.all_eq_true.mp formsApart_caseRuns r hr
      have hblanks := List.all_eq_true.mp (List.all_eq_true.mp caseRuns_blankRanges r hr)
      simp only [Bool.and_eq_true, Bool.or_eq_true, decide_eq_true_eq] at hforms hblanks
      refine .inr ⟨isBlank_eq_false_of_apart fun s hs => ?_,
        fun d hd => isBlank_eq_false_of_apart fun s hs => ?_⟩
      · have := (hblanks s hs).1
        omega
      · have := (hblanks s hs).2
        rw [List.mem_singleton.mp hd, heq, toNat_ofNat (by omega)]
        omega

theorem lowerChar_of_isBlank {c : Char} (h : isBlank c = true) : lowerChar c = [c] := by
  rcases lowerChar_eq_or c with heq | ⟨hc, _⟩
  · exact heq
  · rw [h] at hc
    cases hc

theorem map_isBlank_lowerChar {c : Char} (h : (lowerChar c).length = 1) :
    (lowerChar c).map isBlank = [isBlank c] := by
  rcases lowerChar_eq_or c with heq | ⟨hc, hforms⟩
  · rw [heq]
    rfl
  · obtain ⟨d, hd⟩ := List.length_eq_one_iff.mp h
    rw [hd, List.map_singleton, hc, hforms d (by simp [hd])]

/-- Where every character has one form, blanks and no others stand where they stood. -/
theorem map_isBlank_lowerWordsFrom : ∀ {cs : List Char} (before : List Char),
    (∀ c ∈ cs, (lowerChar c).length = 1) →
    (lowerWordsFrom before cs).map isBlank = cs.map isBlank
  | [], _, _ => rfl
  | c :: cs, before, h => by
    have hform :
      (if c = 'Σ' && meetsCased before && !meetsCased cs then ['ς'] else lowerChar c).map isBlank =
        [isBlank c] := by
      split
      · rename_i hfinal
        simp only [Bool.and_eq_true, decide_eq_true_eq] at hfinal
        rw [hfinal.1.1]
        decide +kernel
      · exact map_isBlank_lowerChar (h c (.head _))
    rw [lowerWordsFrom, List.map_append, hform,
      map_isBlank_lowerWordsFrom _ fun d hd => h d (.tail _ hd)]
    rfl

theorem lowerWords_blanks {cs : List Char} (h : ∀ c ∈ cs, isBlank c = true) : lowerWords cs = cs :=
  lowerWordsFrom_eq_self fun c hc => lowerChar_of_isBlank (h c hc)

/-- Blanks around a text do not count for its lower case. -/
theorem lowerWords_append_blanks {a b : List Char} (ha : ∀ c ∈ a, isBlank c = true)
    (hb : ∀ c ∈ b, isBlank c = true)
    (cs : List Char) : lowerWords (a ++ cs ++ b) = a ++ lowerWords cs ++ b := by
  have hend : lowerWords (cs ++ b) = lowerWords cs ++ b := by
    cases b with
    | nil => simp
    | cons s b =>
      obtain ⟨hs, hb⟩ := List.forall_mem_cons.mp hb
      rw [lowerWords_append_cons (partsCase_of_isBlank hs), lowerChar_of_isBlank hs,
        lowerWords_blanks hb]
      rfl
  rw [List.append_assoc, List.append_assoc]
  induction a with
  | nil => exact hend
  | cons s a ih =>
    obtain ⟨hs, ha⟩ := List.forall_mem_cons.mp ha
    have hfront := lowerWords_append_cons (partsCase_of_isBlank hs) [] (a ++ (cs ++ b))
    rw [lowerChar_of_isBlank hs, ih ha] at hfront
    exact hfront

/-! ## Parts without capital sigmas -/

theorem exists_lowerWordsFrom_append (b : List Char) : ∀ a before : List Char, ∃ x,
    lowerWordsFrom before (a ++ b) = x ++ lowerWordsFrom (a.reverse ++ before) b
  | [], _ => ⟨[], rfl⟩
  | c :: a, before => by
    obtain ⟨x, hx⟩ := exists_lowerWordsFrom_append b a (c :: before)
    rw [List.cons_append, lowerWordsFrom, hx, List.reverse_cons, List.append_assoc,
      List.singleton_append, ← List.append_assoc]
    exact ⟨_, rfl⟩

theorem lowerWordsFrom_append_of_notMem (b : List Char) :
    ∀ {cs : List Char} (before : List Char), 'Σ' ∉ cs →
    lowerWordsFrom before (cs ++ b) = lowerEach cs ++ lowerWordsFrom (cs.reverse ++ before) b
  | [], _, _ => rfl
  | c :: cs, before, h => by
    rw [List.mem_cons, not_or] at h
    rw [List.cons_append, lowerWordsFrom, lowerWordsFrom_append_of_notMem b (c :: before) h.2,
      lowerEach_cons]
    simp [Ne.symm h.1]

/-- Wherever a part without capital sigmas stands in a text, it has the form that it takes character
by character. -/
theorem exists_lowerWords_eq {cs : List Char} (h : 'Σ' ∉ cs) (a b : List Char) :
    ∃ x y, x.length = (lowerEach a).length ∧
    lowerWords (a ++ cs ++ b) = x ++ lowerEach cs ++ y := by
  obtain ⟨x, hx⟩ := exists_lowerWordsFrom_append (cs ++ b) a []
  have hlength := length_lowerWordsFrom (a ++ (cs ++ b)) []
  rw [hx, List.length_append, length_lowerWordsFrom, lowerEach_append a, List.length_append,
    Nat.add_right_cancel_iff] at hlength
  rw [lowerWordsFrom_append_of_notMem b _ h] at hx
  refine ⟨x, lowerWordsFrom (cs.reverse ++ (a.reverse ++ [])) b, hlength, ?_⟩
  rw [List.append_assoc, List.append_assoc]
  exact hx

end DocSearch.Text
