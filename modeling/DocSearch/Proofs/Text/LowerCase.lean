import DocSearch.Text.LowerCase

/-!
# What lower case leaves alone

No form in lower case is a capital of a run: for any two runs of `caseRuns` this is read off their
ends (`formsApart`), so it is enough to compare the runs with each other (`formsApart_caseRuns`),
and not the code points.

* So the forms have no forms of their own (`lowerChar_of_mem`), and lowering a text twice is
  lowering it once (`lower_lower`).
* Both forms of lower case have the same length (`length_lowerWordsFrom`), which is that of the text
  but for one character that has two (`length_lowerEach_bounds`).
* Characters before the letters, digits and the equals sign among them, stay as they are
  (`lowerChar_of_lt`) and come from nothing else (`eq_of_mem_lowerChar_of_lt`).
-/

namespace DocSearch.Text

/-- Whether the forms of the run `r` are clearly no capitals of the run `s`: they lie outside of it,
or both go in steps of two and do not meet. -/
def formsApart (r s : CaseRun) : Bool :=
  (r.2.2.2 + (r.2.1 - r.1)).blt s.1 || s.2.1.blt r.2.2.2 ||
    ((r.2.2.1 == 2 || r.1 == r.2.1) && s.2.2.1 == 2 && (r.2.2.2 + s.1) % 2 == 1)

/-- The forms of every run are characters, and apart from all runs and from `İ`. -/
theorem formsApart_caseRuns : (caseRuns.all fun r =>
    (((0x130, 0x130, 1, 0) :: caseRuns).all (formsApart r)) &&
      (r.2.2.2 + (r.2.1 - r.1) < 0xD800 ||
        (0xE000 ≤ r.2.2.2 && r.2.2.2 + (r.2.1 - r.1) < 0x110000))) = true := by
  decide +kernel

/-- What it is for the code point `n` to be a capital of the run `r`. -/
def IsCapital (n : Nat) (r : CaseRun) : Prop := r.1 ≤ n ∧ n ≤ r.2.1 ∧ (n - r.1) % r.2.2.1 = 0

/-- A code point is its own form, or it is a capital of a run and takes the form that is as far from
the first one. -/
theorem lowerCode_eq_or (n : Nat) : ∀ runs : List CaseRun, lowerCode n runs = n ∨
    ∃ r ∈ runs, IsCapital n r ∧ lowerCode n runs = r.2.2.2 + (n - r.1)
  | [] => .inl rfl
  | (first, last, step, image) :: runs => by
    have later : lowerCode n runs = n ∨ ∃ r ∈ (first, last, step, image) :: runs,
        IsCapital n r ∧ lowerCode n runs = r.2.2.2 + (n - r.1) :=
      (lowerCode_eq_or n runs).imp_right fun ⟨r, hr, h⟩ => ⟨r, .tail _ hr, h⟩
    unfold lowerCode
    split
    · exact .inl rfl
    · split
      · split
        · exact .inr ⟨_, .head _, ⟨by omega, by omega, by assumption⟩, rfl⟩
        · exact later
      · exact later

/-- A form of the run `r` is no capital of a run that is apart from it. -/
theorem not_isCapital_form {n : Nat} {r s : CaseRun} (hn : IsCapital n r)
    (hapart : formsApart r s = true) : ¬ IsCapital (r.2.2.2 + (n - r.1)) s := by
  obtain ⟨hfirst, hlast, hstep⟩ := hn
  rintro ⟨hfirst', hlast', hstep'⟩
  simp only [formsApart, Bool.or_eq_true, Bool.and_eq_true, Nat.blt_eq, beq_iff_eq] at hapart
  rcases hapart with (hbelow | habove) | ⟨⟨htwo | hsingle, htwo'⟩, hodd⟩
  · omega
  · omega
  · rw [htwo] at hstep
    rw [htwo'] at hstep'
    omega
  · rw [htwo'] at hstep'
    omega

theorem toNat_ofNat {n : Nat} (h : n < 0xD800 ∨ (0xE000 ≤ n ∧ n < 0x110000)) :
    (Char.ofNat n).toNat = n := by
  have hvalid : n.isValidChar := by
    rcases h with h | ⟨hlow, hhigh⟩
    · exact .inl h
    · exact .inr ⟨by omega, hhigh⟩
  rw [Char.ofNat, dif_pos hvalid]
  rfl

/-- A form in lower case is its own. -/
theorem lowerChar_of_mem {c d : Char} (h : d ∈ lowerChar c) : lowerChar d = [d] := by
  by_cases hc : c = 'İ'
  · subst hc
    simp only [lowerChar, if_pos, List.mem_cons, List.not_mem_nil, or_false] at h
    rcases h with rfl | rfl <;> decide +kernel
  · rw [lowerChar, if_neg hc, List.mem_singleton] at h
    rcases lowerCode_eq_or c.toNat caseRuns with heq | ⟨r, hr, hcapital, heq⟩
    · rw [heq, Char.ofNat_toNat] at h
      rw [h, lowerChar, if_neg hc, heq, Char.ofNat_toNat]
    · have hforms := List.all_eq_true.mp formsApart_caseRuns r hr
      simp only [Bool.and_eq_true, Bool.or_eq_true, decide_eq_true_eq, List.all_eq_true] at hforms
      obtain ⟨hapart, hchar⟩ := hforms
      have hle : c.toNat ≤ r.2.1 := hcapital.2.1
      have hcode : d.toNat = r.2.2.2 + (c.toNat - r.1) := by
        rw [h, heq]
        exact toNat_ofNat (by omega)
      have hd : d ≠ 'İ' := by
        rintro rfl
        refine not_isCapital_form hcapital (hapart _ (.head _)) ?_
        rw [← hcode]
        exact ⟨by decide, by decide, Nat.mod_one _⟩
      -- The form would have to be a capital itself to have another form.
      have hfixed : lowerCode d.toNat caseRuns = d.toNat := by
        rcases lowerCode_eq_or d.toNat caseRuns with heq' | ⟨s, hs, hcapital', _⟩
        · exact heq'
        · rw [hcode] at hcapital'
          exact absurd hcapital' (not_isCapital_form hcapital (hapart s (.tail _ hs)))
      rw [lowerChar, if_neg hd, hfixed, Char.ofNat_toNat]

/-! ## Lowering twice -/

theorem lowerChar_of_mem_lowerWordsFrom {d : Char} :
    ∀ {cs before : List Char}, d ∈ lowerWordsFrom before cs → lowerChar d = [d]
  | [], _, h => by cases h
  | c :: cs, before, h => by
    rw [lowerWordsFrom] at h
    rcases List.mem_append.mp h with h | h
    · split at h
      · rw [List.mem_singleton.mp h]
        decide +kernel
      · exact lowerChar_of_mem h
    · exact lowerChar_of_mem_lowerWordsFrom h

/-- A text without capitals is its own lower case; in particular it has no capital sigma. -/
theorem lowerWordsFrom_eq_self :
    ∀ {cs before : List Char}, (∀ c ∈ cs, lowerChar c = [c]) → lowerWordsFrom before cs = cs
  | [], _, _ => rfl
  | c :: cs, before, h => by
    have hc := h c (.head _)
    have hsigma : c ≠ 'Σ' := by
      rintro rfl
      exact absurd hc (by decide +kernel)
    have hrest : lowerWordsFrom (c :: before) cs = cs :=
      lowerWordsFrom_eq_self fun d hd => h d (.tail _ hd)
    rw [lowerWordsFrom, hrest]
    simp [hsigma, hc]

/-- Lowering a text twice is lowering it once. -/
theorem lower_lower (s : String) : lower (lower s) = lower s := by
  have h : lowerWords (lowerWords s.toList) = lowerWords s.toList :=
    lowerWordsFrom_eq_self fun _ => lowerChar_of_mem_lowerWordsFrom
  rw [lower, toList_lower, h, lower]

/-! ## Lengths -/

theorem lowerEach_cons (c : Char) (cs : List Char) :
    lowerEach (c :: cs) = lowerChar c ++ lowerEach cs :=
  List.flatMap_cons

/-- Only `İ` has two characters in lower case. -/
theorem length_lowerChar (c : Char) : (lowerChar c).length = if c = 'İ' then 2 else 1 := by
  rw [lowerChar]
  split <;> rfl

/-- Both forms of lower case have the same length: a sigma has one character in either. -/
theorem length_lowerWordsFrom : ∀ cs before : List Char,
    (lowerWordsFrom before cs).length = (lowerEach cs).length
  | [], _ => rfl
  | c :: cs, before => by
    have hform :
        (if c = 'Σ' && meetsCased before && !meetsCased cs then ['ς'] else lowerChar c).length =
          (lowerChar c).length := by
      split
      · rename_i h
        simp only [Bool.and_eq_true, decide_eq_true_eq] at h
        rw [length_lowerChar, h.1.1]
        decide
      · rfl
    rw [lowerWordsFrom, List.length_append, hform, length_lowerWordsFrom cs, lowerEach_cons,
      List.length_append]

theorem length_lowerEach_bounds : ∀ cs : List Char,
    cs.length ≤ (lowerEach cs).length ∧ (lowerEach cs).length ≤ 2 * cs.length
  | [] => by simp [lowerEach]
  | c :: cs => by
    obtain ⟨hlow, hhigh⟩ := length_lowerEach_bounds cs
    have hchar : 1 ≤ (lowerChar c).length ∧ (lowerChar c).length ≤ 2 := by
      rw [length_lowerChar]
      split <;> omega
    rw [lowerEach_cons, List.length_append, List.length_cons]
    omega

theorem fold_eq_empty_iff {s : String} : fold s = "" ↔ s = "" := by
  have hbounds := length_lowerEach_bounds s.toList
  rw [← String.toList_eq_nil_iff, ← String.toList_eq_nil_iff, toList_fold,
    ← List.length_eq_zero_iff, ← List.length_eq_zero_iff]
  omega

/-! ## Characters before the letters -/

/-- The capitals begin with `A`, and their forms with `a`. -/
theorem letters_le_caseRuns :
    (caseRuns.all fun r => 'A'.toNat ≤ r.1 && 'a'.toNat ≤ r.2.2.2) = true := by decide +kernel

/-- Characters before the capital letters have no other form. -/
theorem lowerChar_of_lt {c : Char} (hc : c.toNat < 'A'.toNat) : lowerChar c = [c] := by
  have hdotted : c ≠ 'İ' := by
    rintro rfl
    exact absurd hc (by decide)
  rcases lowerCode_eq_or c.toNat caseRuns with heq | ⟨r, hr, hcapital, _⟩
  · rw [lowerChar, if_neg hdotted, heq, Char.ofNat_toNat]
  · have hletters := List.all_eq_true.mp letters_le_caseRuns r hr
    simp only [Bool.and_eq_true, decide_eq_true_eq] at hletters
    exact absurd (Nat.lt_of_lt_of_le hc hletters.1) (Nat.not_lt.mpr hcapital.1)

theorem lowerEach_cons_of_lt {c : Char} (hc : c.toNat < 'A'.toNat) (cs : List Char) :
    lowerEach (c :: cs) = c :: lowerEach cs := by
  rw [lowerEach_cons, lowerChar_of_lt hc, List.singleton_append]

theorem lowerEach_of_lt : ∀ {cs : List Char}, (∀ c ∈ cs, c.toNat < 'A'.toNat) → lowerEach cs = cs
  | [], _ => rfl
  | c :: cs, h => by
    rw [lowerEach_cons_of_lt (h c (.head _)), lowerEach_of_lt fun d hd => h d (.tail _ hd)]

variable {d : Char} (hd : d.toNat < 'a'.toNat)

include hd

/-- Characters before the small letters are the forms of nothing else. -/
theorem eq_of_mem_lowerChar_of_lt {c : Char} (h : d ∈ lowerChar c) : c = d := by
  by_cases hc : c = 'İ'
  · subst hc
    simp only [lowerChar, if_pos, List.mem_cons, List.not_mem_nil, or_false] at h
    rcases h with rfl | rfl <;> exact absurd hd (by decide)
  · rw [lowerChar, if_neg hc, List.mem_singleton] at h
    rcases lowerCode_eq_or c.toNat caseRuns with heq | ⟨r, hr, hcapital, heq⟩
    · rw [heq, Char.ofNat_toNat] at h
      exact h.symm
    · have hforms := List.all_eq_true.mp formsApart_caseRuns r hr
      have hle : c.toNat ≤ r.2.1 := hcapital.2.1
      have hletters := List.all_eq_true.mp letters_le_caseRuns r hr
      simp only [Bool.and_eq_true, Bool.or_eq_true, decide_eq_true_eq] at hforms hletters
      have hcode : d.toNat = r.2.2.2 + (c.toNat - r.1) := by
        rw [h, heq]
        exact toNat_ofNat (by omega)
      omega

theorem mem_of_mem_lowerEach {cs : List Char} (h : d ∈ lowerEach cs) : d ∈ cs := by
  obtain ⟨c, hc, hmem⟩ := List.mem_flatMap.mp h
  rwa [← eq_of_mem_lowerChar_of_lt hd hmem]

theorem mem_of_mem_lowerWordsFrom : ∀ {cs before : List Char}, d ∈ lowerWordsFrom before cs → d ∈ cs
  | [], _, h => by cases h
  | c :: cs, before, h => by
    rw [lowerWordsFrom] at h
    rcases List.mem_append.mp h with h | h
    · split at h
      · rw [List.mem_singleton.mp h] at hd
        exact absurd hd (by decide)
      · rw [eq_of_mem_lowerChar_of_lt hd h]
        exact .head _
    · exact .tail _ (mem_of_mem_lowerWordsFrom h)

end DocSearch.Text
