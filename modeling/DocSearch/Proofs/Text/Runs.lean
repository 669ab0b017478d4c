import DocSearch.Text.Alphanumeric
import DocSearch.Text.Blank
import Mathlib.Data.List.DropRight

/-!
# Words and the blanks around them

What is left of a text between characters of a class that are taken off both ends is `trim`; the
parts of it that consist of characters of a class are `runs`.

* A character outside of a class parts the runs of the class before it from those behind it
  (`runs_append_cons`); the other lemmas on runs follow from this.
* The runs in a text are its parts that consist of characters of the class and cannot be made longer
  (`mem_runs_iff`).
* Blanks around a text do not change its words (`words_trimmed`), and words that are joined by
  spaces are the words of what they are joined to (`words_intercalate`).
* A word of letters and numbers is a word of the index, too (`isRun_isAlphanumeric`).
-/

namespace DocSearch.Text

variable {p q : Char → Bool}

/-! ## Trimming -/

/-- A text is what is left of it behind the characters of the class that it begins with, and others
of the class. -/
theorem exists_takeWhile_append_trim (p : Char → Bool) (cs : List Char) :
    ∃ b, cs = cs.takeWhile p ++ trim p cs ++ b ∧ ∀ c ∈ b, p c = true := by
  refine ⟨((trimStart p cs).reverse.takeWhile p).reverse, ?_, ?_⟩
  · rw [List.append_assoc, trim, trimEnd, ← List.reverse_append, List.takeWhile_append_dropWhile,
      List.reverse_reverse, trimStart, List.takeWhile_append_dropWhile]
  · intro c hc
    exact List.mem_takeWhile_imp (List.mem_reverse.mp hc)

/-- A text is what is left of it between characters that are taken off. -/
theorem exists_append_trim (p : Char → Bool) (cs : List Char) : ∃ a b, cs = a ++ trim p cs ++ b ∧
    (∀ c ∈ a, p c = true) ∧ ∀ c ∈ b, p c = true := by
  obtain ⟨b, heq, hb⟩ := exists_takeWhile_append_trim p cs
  exact ⟨_, b, heq, fun c hc => List.mem_takeWhile_imp hc, hb⟩

theorem length_trim_le (p : Char → Bool) (cs : List Char) : (trim p cs).length ≤ cs.length := by
  obtain ⟨a, b, heq, _, _⟩ := exists_append_trim p cs
  have hlength := congrArg List.length heq
  rw [List.length_append, List.length_append] at hlength
  omega

theorem mem_of_mem_trim {c : Char} {cs : List Char} (h : c ∈ trim p cs) : c ∈ cs := by
  obtain ⟨a, b, heq, _, _⟩ := exists_append_trim p cs
  rw [heq]
  exact List.mem_append_left b (List.mem_append_right a h)

theorem eq_trimmed_of_nonBlank? {s t : String} (h : nonBlank? s = some t) : t = trimmed s := by
  rw [nonBlank?, Option.ite_none_left_eq_some] at h
  exact (Option.some.inj h.2).symm

/-- A text that is not blank says what is left of it when it is `trimmed`. -/
theorem nonBlank?_eq_some_iff {s t : String} : nonBlank? s = some t ↔ t = trimmed s ∧ t ≠ "" := by
  rw [nonBlank?, Option.ite_none_left_eq_some, String.isEmpty_iff, Option.some.injEq]
  constructor
  · rintro ⟨hne, rfl⟩
    exact ⟨rfl, hne⟩
  · rintro ⟨rfl, hne⟩
    exact ⟨hne, rfl⟩

/-- Nothing is left of a text of the class, and of no other one. -/
theorem trim_eq_nil_iff {cs : List Char} : trim p cs = [] ↔ ∀ c ∈ cs, p c = true := by
  constructor
  · intro h c hc
    obtain ⟨a, b, heq, ha, hb⟩ := exists_append_trim p cs
    rw [h, List.append_nil] at heq
    rcases List.mem_append.mp (heq ▸ hc) with hc | hc
    · exact ha c hc
    · exact hb c hc
  · intro h
    rw [trim, trimStart, List.dropWhile_eq_nil_iff.mpr h]
    rfl

/-- Nothing is taken off a text without characters of the class. -/
theorem trim_of_forall {cs : List Char} (h : ∀ c ∈ cs, p c = false) : trim p cs = cs := by
  obtain ⟨a, b, heq, ha, hb⟩ := exists_append_trim p cs
  have hnone : ∀ x : List Char, (∀ c ∈ x, p c = true) → (∀ c ∈ x, c ∈ cs) → x = [] := by
    intro x hx hmem
    refine List.eq_nil_iff_forall_not_mem.mpr fun c hc => ?_
    exact Bool.false_ne_true ((h c (hmem c hc)).symm.trans (hx c hc))
  have hmem : ∀ c, c ∈ a ++ trim p cs ++ b → c ∈ cs := fun c hc => heq ▸ hc
  rw [hnone a ha fun c hc => hmem c (by simp [hc]),
    hnone b hb fun c hc => hmem c (by simp [hc])] at heq
  simpa using heq.symm

/-- What is left does not begin with a character that is taken off, nor end with one. -/
theorem trim_trim (p : Char → Bool) (cs : List Char) : trim p (trim p cs) = trim p cs := by
  have hstart : trimStart p (trim p cs) = trim p cs := by
    refine List.dropWhile_eq_self_iff.mpr fun hpos => ?_
    have hfront : trim p cs <+: trimStart p cs := List.rdropWhile_prefix p (trimStart p cs)
    rw [hfront.getElem hpos]
    exact List.dropWhile_eq_self_iff.mp (List.dropWhile_idempotent p cs)
      (hfront.length_le.trans_lt' hpos)
  rw [trim, hstart, trim]
  exact List.rdropWhile_idempotent p (trimStart p cs)

theorem trimEnd_append_of_forall {b : List Char} (hb : ∀ c ∈ b, p c = true) (a : List Char) :
    trimEnd p (a ++ b) = trimEnd p a := by
  have hnone : b.reverse.dropWhile p = [] :=
    List.dropWhile_eq_nil_iff.mpr fun c hc => hb c (List.mem_reverse.mp hc)
  rw [trimEnd, List.reverse_append, List.dropWhile_append, hnone]
  rfl

/-- Characters of the class at the front do not count. -/
theorem trim_trimStart (p : Char → Bool) (cs : List Char) :
    trim p (trimStart p cs) = trim p cs := by
  rw [trim, trimStart, trimStart, List.dropWhile_idempotent]
  rfl

theorem trim_append_of_forall {b : List Char} (hb : ∀ c ∈ b, p c = true) (a : List Char) :
    trim p (a ++ b) = trim p a := by
  rw [trim, trim, trimStart, trimStart, List.dropWhile_append]
  split
  · rename_i hempty
    rw [List.dropWhile_eq_nil_iff.mpr hb, List.isEmpty_iff.mp hempty]
  · exact trimEnd_append_of_forall hb _

/-- Characters of a class within the class do not count at the end. -/
theorem trim_trimEnd_of_imp (h : ∀ c, q c = true → p c = true) (cs : List Char) :
    trim p (trimEnd q cs) = trim p cs := by
  obtain ⟨b, heq, hb⟩ : ∃ b, cs = trimEnd q cs ++ b ∧ ∀ c ∈ b, q c = true := by
    refine ⟨(cs.reverse.takeWhile q).reverse, ?_,
      fun c hc => List.mem_takeWhile_imp (List.mem_reverse.mp hc)⟩
    rw [trimEnd, ← List.reverse_append, List.takeWhile_append_dropWhile, List.reverse_reverse]
  calc trim p (trimEnd q cs) = trim p (trimEnd q cs ++ b) :=
    (trim_append_of_forall (fun c hc => h c (hb c hc)) _).symm
    _ = trim p cs := by rw [← heq]

theorem trim_trimEnd (p : Char → Bool) (cs : List Char) : trim p (trimEnd p cs) = trim p cs :=
  trim_trimEnd_of_imp (fun _ => id) cs

/-- Characters of a class within the class do not count at either end. -/
theorem trim_trim_of_imp (h : ∀ c, q c = true → p c = true) (cs : List Char) :
    trim p (trim q cs) = trim p cs := by
  have hstart : trim p (trimStart q cs) = trim p cs := by
    have hfront : ∀ c ∈ cs.takeWhile q, p c = true := fun c hc => h c (List.mem_takeWhile_imp hc)
    conv_rhs => rw [← List.takeWhile_append_dropWhile (p := q) (l := cs)]
    rw [trim, trim, trimStart, trimStart, trimStart, List.dropWhile_append_of_pos hfront]
  exact (trim_trimEnd_of_imp h (trimStart q cs)).trans hstart

/-! ## Runs -/

/-- The runs from the front: a character of the class goes on with the run behind it, if there is
one at once. -/
theorem runs_cons (c : Char) (cs : List Char) : runs p (c :: cs) =
    if p c then
      match cs, runs p cs with
      | d :: _, w :: ws => if p d then (c :: w) :: ws else [c] :: w :: ws
      | _, ws => [c] :: ws
    else runs p cs := rfl

theorem runs_cons_of_neg {c : Char} (hc : p c = false) (cs : List Char) :
    runs p (c :: cs) = runs p cs := by
  rw [runs_cons, hc, if_neg Bool.false_ne_true]

/-- A run goes as far as there are characters of the class. -/
theorem runs_cons_of_pos {c : Char} (hc : p c = true) : ∀ cs : List Char,
    runs p (c :: cs) = (c :: cs.takeWhile p) :: runs p (cs.dropWhile p)
  | [] => by
    rw [runs_cons, if_pos hc]
    rfl
  | d :: cs => by
    rw [runs_cons, if_pos hc]
    by_cases hd : p d = true
    · rw [runs_cons_of_pos hd cs, List.takeWhile_cons_of_pos hd, List.dropWhile_cons_of_pos hd]
      exact if_pos hd
    · rw [List.takeWhile_cons_of_neg hd, List.dropWhile_cons_of_neg hd]
      cases runs p (d :: cs) with
      | nil => rfl
      | cons w ws => exact if_neg hd

theorem takeWhile_append_cons {s : Char} (hs : p s = false) (b : List Char) : ∀ a : List Char,
    (a ++ s :: b).takeWhile p = a.takeWhile p ∧ (a ++ s :: b).dropWhile p = a.dropWhile p ++ s :: b
  | [] => by simp [hs]
  | c :: a => by
    obtain ⟨htake, hdrop⟩ := takeWhile_append_cons hs b a
    by_cases hc : p c = true
    · simp [hc, htake, hdrop]
    · simp [hc]

/-- A character outside of the class stays where it is. -/
theorem trim_append_cons {s : Char} (hs : p s = false) (a b : List Char) :
    trim p (a ++ s :: b) = trimStart p a ++ s :: trimEnd p b := by
  have hreverse :
      (trimStart p a ++ s :: b).reverse = b.reverse ++ s :: (trimStart p a).reverse := by simp
  rw [trim, trimStart, (takeWhile_append_cons hs b a).2, trimEnd]
  change ((trimStart p a ++ s :: b).reverse.dropWhile p).reverse = _
  rw [hreverse, (takeWhile_append_cons hs _ _).2, List.reverse_append, List.reverse_cons,
    List.reverse_reverse, List.append_assoc, List.singleton_append]
  rfl

/-- A character outside of the class parts the runs. -/
theorem runs_append_cons {s : Char} (hs : p s = false) (b : List Char) : ∀ a : List Char,
    runs p (a ++ s :: b) = runs p a ++ runs p b
  | [] => runs_cons_of_neg hs b
  | c :: a => by
    by_cases hc : p c = true
    · obtain ⟨htake, hdrop⟩ := takeWhile_append_cons hs b a
      rw [List.cons_append, runs_cons_of_pos hc, runs_cons_of_pos hc, htake, hdrop,
        runs_append_cons hs b (a.dropWhile p), List.cons_append]
    · have hneg : p c = false := by simpa using hc
      rw [List.cons_append, runs_cons_of_neg hneg, runs_cons_of_neg hneg, runs_append_cons hs b a]
termination_by a => a.length
decreasing_by
  · exact Nat.lt_succ_of_le (List.dropWhile_sublist p).length_le
  · exact Nat.lt_succ_self _

/-- A text of the class is one run. -/
theorem runs_of_forall {w : List Char} (hne : w ≠ []) (hw : ∀ c ∈ w, p c = true) :
    runs p w = [w] := by
  cases w with
  | nil => exact absurd rfl hne
  | cons c w =>
    obtain ⟨hc, hrest⟩ := List.forall_mem_cons.mp hw
    rw [runs_cons_of_pos hc, List.takeWhile_eq_self_iff.mpr hrest,
      List.dropWhile_eq_nil_iff.mpr hrest, runs]

theorem runs_append_of_forall {b : List Char} (hb : ∀ c ∈ b, p c = false) (a : List Char) :
    runs p (a ++ b) = runs p a := by
  induction b generalizing a with
  | nil => rw [List.append_nil]
  | cons c b ih =>
    obtain ⟨hc, hrest⟩ := List.forall_mem_cons.mp hb
    have hnone : runs p b = [] := ih hrest []
    rw [runs_append_cons hc, hnone, List.append_nil]

theorem runs_forall_append {a : List Char} (ha : ∀ c ∈ a, p c = false) (b : List Char) :
    runs p (a ++ b) = runs p b := by
  induction a with
  | nil => rfl
  | cons c a ih =>
    obtain ⟨hc, hrest⟩ := List.forall_mem_cons.mp ha
    rw [List.cons_append, runs_cons_of_neg hc, ih hrest]

/-- A part `w` of a text of characters of the class that cannot be made longer. -/
structure IsRun (p : Char → Bool) (w cs : List Char) : Prop where
  ne_nil : w ≠ []
  inside : ∀ c ∈ w, p c = true
  parted : ∃ a b, cs = a ++ w ++ b ∧ (∀ c ∈ a.getLast?, p c = false) ∧ ∀ c ∈ b.head?, p c = false

theorem mem_runs_of_isRun {w cs : List Char} (h : IsRun p w cs) : w ∈ runs p cs := by
  obtain ⟨hne, hinside, a, b, rfl, ha, hb⟩ := h
  -- Behind the part there is nothing, or a character outside of the class.
  have hbehind : w ∈ runs p (w ++ b) := by
    cases b with
    | nil => rw [List.append_nil, runs_of_forall hne hinside, List.mem_singleton]
    | cons s b =>
      rw [runs_append_cons (hb s rfl), runs_of_forall hne hinside]
      exact .head _
  rw [List.append_assoc]
  rcases List.eq_nil_or_concat a with rfl | ⟨a, s, rfl⟩
  · exact hbehind
  · have hs : p s = false := ha s (by simp)
    rw [List.concat_eq_append, List.append_assoc, List.singleton_append, runs_append_cons hs]
    exact List.mem_append_right _ hbehind

/-- A text is of the class, or there is a first character outside of it. -/
theorem exists_append_cons_or (p : Char → Bool) : ∀ cs : List Char, (∀ c ∈ cs, p c = true) ∨
    ∃ a s b, cs = a ++ s :: b ∧ (∀ c ∈ a, p c = true) ∧ p s = false
  | [] => .inl fun _ hc => nomatch hc
  | c :: cs => by
    by_cases hc : p c = true
    · rcases exists_append_cons_or p cs with hall | ⟨a, s, b, rfl, ha, hs⟩
      · exact .inl (List.forall_mem_cons.mpr ⟨hc, hall⟩)
      · exact .inr ⟨c :: a, s, b, rfl, List.forall_mem_cons.mpr ⟨hc, ha⟩, hs⟩
    · exact .inr ⟨[], c, cs, rfl, by simp, by simpa using hc⟩

/-- The first character outside of the class ends the first run; the others are runs of what is
behind it. -/
theorem isRun_of_mem_runs {w cs : List Char} (h : w ∈ runs p cs) : IsRun p w cs := by
  have hfirst : ∀ {a : List Char}, (∀ c ∈ a, p c = true) → w ∈ runs p a → w ≠ [] ∧ w = a := by
    intro a ha hw
    by_cases hne : a = []
    · rw [hne] at hw
      cases hw
    · rw [runs_of_forall hne ha, List.mem_singleton] at hw
      exact ⟨hw ▸ hne, hw⟩
  rcases exists_append_cons_or p cs with hall | ⟨a, s, b, rfl, ha, hs⟩
  · obtain ⟨hne, rfl⟩ := hfirst hall h
    exact ⟨hne, hall, [], [], by simp, by simp, by simp⟩
  · rw [runs_append_cons hs] at h
    rcases List.mem_append.mp h with h | h
    · obtain ⟨hne, rfl⟩ := hfirst ha h
      exact ⟨hne, ha, [], s :: b, by simp, by simp, by simpa using hs⟩
    · obtain ⟨hne, hinside, a', b', rfl, ha', hb'⟩ := isRun_of_mem_runs h
      refine ⟨hne, hinside, a ++ s :: a', b', by simp, ?_, hb'⟩
      cases a' with
      | nil => simpa using hs
      | cons d a' => simpa using ha'
termination_by cs.length

/-- The `runs` in a text are its parts of characters of the class that cannot be made longer. -/
theorem mem_runs_iff {w cs : List Char} : w ∈ runs p cs ↔ IsRun p w cs :=
  ⟨isRun_of_mem_runs, mem_runs_of_isRun⟩

/-- Taking characters outside of the class off both ends leaves the runs. -/
theorem runs_trim (hpq : ∀ c, q c = true → p c = false) (cs : List Char) :
    runs p (trim q cs) = runs p cs := by
  obtain ⟨a, b, heq, ha, hb⟩ := exists_append_trim q cs
  calc runs p (trim q cs) = runs p (a ++ trim q cs) :=
        (runs_forall_append (fun c hc => hpq c (ha c hc)) _).symm
    _ = runs p (a ++ trim q cs ++ b) := (runs_append_of_forall (fun c hc => hpq c (hb c hc)) _).symm
    _ = runs p cs := by rw [← heq]

/-! ## Words -/

/-- The words of a text are its runs of characters that are no blanks. -/
theorem mem_words_iff {s w : String} :
    w ∈ words s ↔ IsRun (fun c => !isBlank c) w.toList s.toList := by
  rw [words, List.mem_map, ← mem_runs_iff]
  constructor
  · rintro ⟨r, hr, rfl⟩
    rwa [String.toList_ofList]
  · intro h
    exact ⟨w.toList, h, String.ofList_toList⟩

/-- A text that is not empty and has no blank: one that can be a word. -/
structure IsWord (s : String) : Prop where
  ne_empty : s ≠ ""
  unbroken : ∀ c ∈ s.toList, isBlank c = false

instance (s : String) : Decidable (IsWord s) :=
  decidable_of_iff (s ≠ "" ∧ s.toList.all (fun c => !isBlank c) = true)
    ⟨fun h => ⟨h.1, fun c hc => by simpa using List.all_eq_true.mp h.2 c hc⟩,
      fun h => ⟨h.ne_empty, List.all_eq_true.mpr fun c hc => by simp [h.unbroken c hc]⟩⟩

theorem isWord_of_mem_words {s w : String} (h : w ∈ words s) : IsWord w := by
  obtain ⟨hne, hinside, _⟩ := mem_words_iff.mp h
  exact ⟨fun hw => hne (hw ▸ rfl), fun c hc => by simpa using hinside c hc⟩

namespace IsWord

variable {s : String} (h : IsWord s)

include h

theorem toList_ne_nil : s.toList ≠ [] := mt String.toList_eq_nil_iff.mp h.ne_empty

/-- A word has itself as its only word. -/
theorem words_eq : words s = [s] := by
  rw [words, runs_of_forall h.toList_ne_nil fun c hc => by simp [h.unbroken c hc],
    List.map_singleton, String.ofList_toList]

theorem nonBlank?_eq : nonBlank? s = some s := by
  have htrimmed : trimmed s = s := by
    rw [trimmed, trim_of_forall h.unbroken, String.ofList_toList]
  rw [nonBlank?, htrimmed]
  exact if_neg (mt String.isEmpty_iff.mp h.ne_empty)

end IsWord

/-- Blanks around a text do not change its `words`. -/
theorem words_trimmed (s : String) : words (trimmed s) = words s := by
  rw [words, toList_trimmed, runs_trim fun c hc => by simp [hc], words]

/-- Blank texts have no words, all others the words of what is between the blanks around them. -/
theorem words_of_nonBlank? (s : String) : words ((nonBlank? s).getD "") = words s := by
  rw [nonBlank?, ← words_trimmed s]
  by_cases h : (trimmed s).isEmpty = true
  · rw [if_pos h, String.isEmpty_iff.mp h]
    rfl
  · rw [if_neg h]
    rfl

/-- Words that are joined by spaces are the words of what they are joined to. -/
theorem words_intercalate : ∀ {ws : List String},
    (∀ w ∈ ws, IsWord w) → words (" ".intercalate ws) = ws
  | [], _ => rfl
  | [w], h => by
    rw [String.intercalate_singleton, (h w (.head _)).words_eq]
  | w :: v :: ws, h => by
    obtain ⟨hw, hrest⟩ := List.forall_mem_cons.mp h
    have hspace : (!isBlank ' ') = false := by decide
    have hjoined : (w ++ " " ++ " ".intercalate (v :: ws)).toList =
        w.toList ++ ' ' :: (" ".intercalate (v :: ws)).toList := by simp
    have hword := hw.words_eq
    have ih := words_intercalate hrest
    rw [words] at hword ih
    rw [String.intercalate_cons_cons, words, hjoined, runs_append_cons hspace, List.map_append,
      hword, ih]
    rfl

/-! ## Words of the index -/

theorem exists_mem_of_inRanges {n : Nat} : ∀ {rs : List (Nat × Nat)}, inRanges n rs = true →
    ∃ r ∈ rs, r.1 ≤ n ∧ n ≤ r.2
  | r :: rs, h => by
    rw [inRanges] at h
    split at h
    · cases h
    · rcases Bool.or_eq_true_iff.mp h with hlast | hrest
      · exact ⟨r, .head _, by omega, of_decide_eq_true hlast⟩
      · obtain ⟨s, hs, hbounds⟩ := exists_mem_of_inRanges hrest
        exact ⟨s, .tail _ hs, hbounds⟩

theorem blanks_not_alphanumeric : (blankRanges.all fun r =>
    (List.range (r.2 - r.1 + 1)).all fun k => !isAlphanumericCode (r.1 + k)) = true := by
  decide +kernel

/-- Letters and numbers are no blanks. -/
theorem isBlank_of_isAlphanumeric {c : Char} (h : isAlphanumeric c = true) : isBlank c = false := by
  by_contra hblank
  obtain ⟨r, hr, hfirst, hlast⟩ := exists_mem_of_inRanges (Bool.not_eq_false _ ▸ hblank)
  have hnone :=
    List.all_eq_true.mp (List.all_eq_true.mp blanks_not_alphanumeric r hr) (c.toNat - r.1)
    (List.mem_range.mpr (by omega))
  rw [Nat.add_sub_cancel' hfirst] at hnone
  rw [isAlphanumeric] at h
  rw [h] at hnone
  cases hnone

/-- A word of letters and numbers is a word of the index too: blanks around it end it there as
well. -/
theorem isRun_isAlphanumeric {w s : String} (hw : w ∈ words s)
    (h : ∀ c ∈ w.toList, isAlphanumeric c = true) :
    IsRun isAlphanumeric w.toList s.toList := by
  obtain ⟨hne, _, a, b, heq, ha, hb⟩ := mem_words_iff.mp hw
  have hblank : ∀ c : Char, (!isBlank c) = false → isAlphanumeric c = false := by
    intro c hc
    by_contra halphanumeric
    rw [isBlank_of_isAlphanumeric (Bool.not_eq_false _ ▸ halphanumeric)] at hc
    cases hc
  exact ⟨hne, h, a, b, heq, fun c hc => hblank c (ha c hc), fun c hc => hblank c (hb c hc)⟩

end DocSearch.Text
