import DocSearch.Keyword.Cache
import DocSearch.Proofs.Sorted.Entries

/-!
# What a keyword cloud counts

A set of keywords speaks for a keyword if it has this keyword and the whole filter
(`KeywordCloud.Bears`).  A cloud has no entry of zero (`KeywordCloud.entry`).

* Adding a set to a cloud adds one for each keyword beyond the filter that the set speaks for
  (`KeywordCloud.get?_addNode`), which is the step.
* So the cloud of some sets has, for each keyword beyond the filter, the number of sets that speak
  for it (`KeywordCloud.get?_ofNodes`), by induction on the sets.

The rest is counting: the order of the sets does not matter (`KeywordCloud.ofNodes_perm`), two
keywords may enter the filter in either order (`KeywordCloud.get?_ofNodes_narrowed_comm`), and no
count grows with the filter (`KeywordCloud.countOf_ofNodes_narrowed_le`).  They are put together in
`KeywordCloud.ofNodes_counts_bearers`.
-/

namespace DocSearch.KeywordCloud

/-- The entry for a count `n`; what is not counted has none. -/
def entry (n : Nat) : Option Nat := if n = 0 then none else some n

/-- The count of a keyword, `0` if there is no entry for it. -/
def countOf (cloud : KeywordCloud) (k : String) : Nat := (cloud.get? k).getD 0

/-- Whether a set of `keywords` has the keyword `k` and the whole `filter`. -/
def Bears (filter : SortedSet String) (k : String) (keywords : SortedSet String) : Prop :=
  k ∈ keywords ∧ ∀ f ∈ filter, f ∈ keywords

instance (filter : SortedSet String) (k : String) : DecidablePred (Bears filter k) :=
  fun keywords =>
  inferInstanceAs (Decidable (k ∈ keywords.toList ∧ ∀ f ∈ filter.toList, f ∈ keywords.toList))

instance (filter : SortedSet String) (k : String) : Decidable (k ∈ filter) :=
  inferInstanceAs (Decidable (k ∈ filter.toList))

/-- The count is read back from its `entry`. -/
theorem getD_entry (n : Nat) : (entry n).getD 0 = n := by
  unfold entry
  split
  · simp [*]
  · rfl

theorem entry_eq_some_iff {n m : Nat} : entry n = some m ↔ m = n ∧ 0 < n := by
  unfold entry
  split
  · simp_all
  · simp [eq_comm]
    omega

/-! ## Adding sets to a cloud -/

variable {cloud : KeywordCloud} {filter keywords : SortedSet String}
  {nodes : List (SortedSet String)} {k j : String}
  {n : Nat}

/-- Counting a `word` once adds one to its entry, and leaves the other entries. -/
theorem get?_count (h : cloud.get? k = entry n) (word : String) :
    (cloud.count word).get? k = entry (n + if word = k then 1 else 0) := by
  rw [count, SortedMap.get?_insert]
  by_cases hk : k = word
  · subst hk
    rw [if_pos rfl, if_pos rfl, h, getD_entry, entry, if_neg (by omega)]
  · rw [if_neg hk, if_neg (Ne.symm hk), h, Nat.add_zero]

/-- Counting some `words` adds to an entry as often as the word is among them. -/
theorem get?_foldl_count (words : List String) : ∀ {cloud : KeywordCloud} {n : Nat},
    cloud.get? k = entry n →
      (words.foldl count cloud).get? k = entry (n + words.count k) := by
  induction words with
  | nil => exact fun h => h
  | cons word words ih =>
    intro cloud n h
    rw [List.foldl_cons, ih (get?_count h word), List.count_cons, Nat.add_assoc,
      Nat.add_comm (List.count k words)]
    simp only [beq_iff_eq]

/-- A set of `keywords` has each keyword once, so it adds one for a keyword at most. -/
theorem get?_addNode (h : cloud.get? k = entry n) (keywords : SortedSet String) :
    (addNode filter cloud keywords).get? k =
      entry (n + if k ∉ filter ∧ Bears filter k keywords then 1 else 0) := by
  unfold addNode
  split
  · rename_i hsubset
    have hwords : (keywords.toList.filter fun k => !filter.contains k).Nodup :=
      keywords.nodup_toList.filter _
    have hmem : k ∈ (keywords.toList.filter fun k => !filter.contains k) ↔
        k ∉ filter ∧ Bears filter k keywords := by
      rw [List.mem_filter, ← SortedSet.mem_iff, Bool.not_eq_true', ← Bool.not_eq_true,
        SortedSet.contains_iff, Bears, and_iff_left (SortedSet.isSubset_iff.mp hsubset), and_comm]
    rw [get?_foldl_count _ h, hwords.count]
    simp only [hmem]
  · rename_i hsubset
    have hnot : ¬ (k ∉ filter ∧ Bears filter k keywords) := fun hbears =>
      hsubset (SortedSet.isSubset_iff.mpr hbears.2.2)
    rw [if_neg hnot, h, Nat.add_zero]

/-- Adding some sets counts those that `Bears` holds of, for each keyword beyond the filter. -/
theorem get?_foldl_addNode (nodes : List (SortedSet String)) : ∀ {cloud : KeywordCloud} {n : Nat},
    cloud.get? k = entry n → (nodes.foldl (addNode filter) cloud).get? k =
      entry (n + nodes.countP fun keywords => k ∉ filter ∧ Bears filter k keywords) := by
  induction nodes with
  | nil => exact fun h => h
  | cons keywords nodes ih =>
    intro cloud n h
    rw [List.foldl_cons, ih (get?_addNode h keywords), List.countP_cons, Nat.add_assoc,
      Nat.add_comm (List.countP _ _)]
    simp only [decide_eq_true_eq]

/-! ## The cloud of some sets -/

/-- A keyword beyond the filter is counted as often as there are sets that have it and the filter
(`Bears`). -/
theorem get?_ofNodes (nodes : List (SortedSet String)) (filter : Option (SortedSet String))
    (k : String) :
    (ofNodes nodes filter).get? k =
      entry (nodes.countP fun keywords => k ∉ filter.getD .empty ∧
        Bears (filter.getD .empty) k keywords) := by
  have hempty : (SortedMap.empty : KeywordCloud).get? k = entry 0 := rfl
  rw [ofNodes, get?_foldl_addNode nodes hempty, Nat.zero_add]

/-- The same for `countOf`, which has no entries of zero to tell apart. -/
theorem countOf_ofNodes (nodes : List (SortedSet String)) (filter : Option (SortedSet String))
    (k : String) :
    (ofNodes nodes filter).countOf k =
      nodes.countP fun keywords => k ∉ filter.getD .empty ∧
      Bears (filter.getD .empty) k keywords := by
  rw [countOf, get?_ofNodes, getD_entry]

/-- The entries of a cloud: for keywords beyond the filter that some set `Bears`, the number of
these sets. -/
theorem get?_ofNodes_eq_some_iff {filter : Option (SortedSet String)} :
    (ofNodes nodes filter).get? k = some n ↔ k ∉ filter.getD .empty ∧
      (∃ keywords ∈ nodes, Bears (filter.getD .empty) k keywords) ∧
      n = nodes.countP (Bears (filter.getD .empty) k) := by
  rw [get?_ofNodes, entry_eq_some_iff, List.countP_pos_iff]
  by_cases hk : k ∈ filter.getD .empty
  · simp [hk]
  · simp [hk, and_comm]

/-- The order of the sets does not matter, as `ofNodes` only counts. -/
theorem ofNodes_perm {other : List (SortedSet String)} (h : nodes.Perm other)
    (filter : Option (SortedSet String)) :
    ofNodes nodes filter = ofNodes other filter :=
  SortedMap.ext_get? fun k => by rw [get?_ofNodes, get?_ofNodes, h.countP_eq]

/-! ## A larger filter -/

/-- The `filter` with the keyword `k` added. -/
def narrowed (filter : Option (SortedSet String)) (k : String) : Option (SortedSet String) :=
  some ((filter.getD .empty).insert k)

theorem bears_insert_iff :
    Bears (filter.insert k) j keywords ↔ k ∈ keywords ∧ Bears filter j keywords := by
  simp only [Bears, SortedSet.mem_insert, forall_eq_or_imp]
  exact and_left_comm

/-- The sets that count for `j` once `k` is in the filter are those that count for both. -/
theorem counts_insert_iff (hk : k ∉ filter) (hjk : j ≠ k) :
    (j ∉ filter.insert k ∧ Bears (filter.insert k) j keywords) ↔
      (j ∉ filter ∧ Bears filter j keywords) ∧ (k ∉ filter ∧ Bears filter k keywords) := by
  rw [SortedSet.mem_insert, bears_insert_iff]
  simp only [Bears, hk, hjk]
  tauto

section Narrowed

variable {filter : Option (SortedSet String)} (hk : k ∉ filter.getD .empty) (hjk : j ≠ k)

include hk hjk

/-- Two keywords enter a filter in either order. -/
theorem get?_ofNodes_narrowed_comm (hj : j ∉ filter.getD .empty) (nodes : List (SortedSet String)) :
    (ofNodes nodes (narrowed filter k)).get? j = (ofNodes nodes (narrowed filter j)).get? k := by
  rw [get?_ofNodes, get?_ofNodes]
  congr 1
  refine List.countP_congr fun keywords _ => ?_
  simp only [decide_eq_true_eq, narrowed, Option.getD_some, counts_insert_iff hk hjk,
    counts_insert_iff hj hjk.symm, and_comm]

/-- No keyword `j` has more once `k` is in the filter than it had, or than `k` had. -/
theorem countOf_ofNodes_narrowed_le (nodes : List (SortedSet String)) :
    (ofNodes nodes (narrowed filter k)).countOf j ≤ (ofNodes nodes filter).countOf j ∧
      (ofNodes nodes (narrowed filter k)).countOf j ≤ (ofNodes nodes filter).countOf k := by
  simp only [countOf_ofNodes, narrowed, Option.getD_some, counts_insert_iff hk hjk]
  constructor
  · refine List.countP_mono_left fun keywords _ h => ?_
    exact decide_eq_true (of_decide_eq_true h).1
  · refine List.countP_mono_left fun keywords _ h => ?_
    exact decide_eq_true (of_decide_eq_true h).2

end Narrowed

/-- A keyword has an entry in the cloud of some sets iff it is not in the filter and some set has it
together with the whole filter, and the entry is the number of these sets.  A missing filter is an
empty one, and the order of the sets does not matter.  If a keyword beyond the filter, as those of
the cloud are, enters the filter, any other keyword that could enter it has the count that the first
one has if the second enters instead, and no keyword has more than it had, or than the first one
had.  (A keyword that is in the filter already has no count, and nothing changes if it enters
again.) -/
theorem ofNodes_counts_bearers (nodes : List (SortedSet String))
    (filter : Option (SortedSet String)) :
    (∀ k n, (ofNodes nodes filter).get? k = some n ↔ k ∉ filter.getD .empty ∧
      (∃ keywords ∈ nodes, Bears (filter.getD .empty) k keywords) ∧
      n = nodes.countP (Bears (filter.getD .empty) k)) ∧
    ofNodes nodes none = ofNodes nodes (some .empty) ∧
    (∀ other, nodes.Perm other → ofNodes other filter = ofNodes nodes filter) ∧
    ∀ k j, k ∉ filter.getD .empty → j ≠ k →
      (j ∉ filter.getD .empty →
        (ofNodes nodes (narrowed filter k)).get? j = (ofNodes nodes (narrowed filter j)).get? k) ∧
      (ofNodes nodes (narrowed filter k)).countOf j ≤ (ofNodes nodes filter).countOf j ∧
      (ofNodes nodes (narrowed filter k)).countOf j ≤ (ofNodes nodes filter).countOf k ∧
      (j ∈ filter.getD .empty → (ofNodes nodes (narrowed filter k)).get? j = none ∧
        ofNodes nodes (narrowed filter j) = ofNodes nodes filter) := by
  refine ⟨fun k n => get?_ofNodes_eq_some_iff, rfl, fun other h => (ofNodes_perm h filter).symm, ?_⟩
  intro k j hk hjk
  obtain ⟨hown, hfirst⟩ := countOf_ofNodes_narrowed_le hk hjk nodes
  refine ⟨fun hj => get?_ofNodes_narrowed_comm hk hjk hj nodes, hown, hfirst, fun hj => ⟨?_, ?_⟩⟩
  · refine Option.eq_none_iff_forall_ne_some.mpr fun n hn => ?_
    exact (get?_ofNodes_eq_some_iff.mp hn).1 (SortedSet.mem_insert.mpr (.inr hj))
  · rw [narrowed, SortedSet.insert_of_mem hj]
    rfl

/-! ### Sets of colors -/

/-- Some sets of colors, `blue` with `red` twice. -/
def colorSets : List (SortedSet String) :=
  [.ofList ["red", "blue"], .ofList ["red", "green"], .ofList ["green", "red", "blue"],
    .ofList ["blue"], .ofList ["blue", "red"]]

/-- The filter for `red`. -/
def onlyRed : SortedSet String := .ofList ["red"]

/-- Of the sets with `red` three have `blue`, the equal ones counted separately, and one of these
has `green`. -/
theorem ofNodes_counts_bearers_colors :
    (ofNodes colorSets (some onlyRed)).get? "blue" = some 3 ∧
    ofNodes colorSets.reverse (some onlyRed) = ofNodes colorSets (some onlyRed) ∧
    ("blue" ∉ onlyRed ∧ "green" ≠ "blue" ∧ "green" ∉ onlyRed) ∧
    (ofNodes colorSets (narrowed (some onlyRed) "blue")).get? "green" = some 1 ∧
    (ofNodes colorSets (narrowed (some onlyRed) "green")).get? "blue" = some 1 ∧
    1 ≤ (ofNodes colorSets (some onlyRed)).countOf "green" ∧
    1 ≤ (ofNodes colorSets (some onlyRed)).countOf "blue" ∧
    (ofNodes colorSets (narrowed (some onlyRed) "blue")).get? "red" = none := by
  have hblue : "blue" ∉ onlyRed := by decide +kernel
  have hgreen : "green" ∉ onlyRed := by decide +kernel
  have hred : "red" ∈ onlyRed := by decide +kernel
  obtain ⟨hentries, _, hperm, hnarrowed⟩ := ofNodes_counts_bearers colorSets (some onlyRed)
  obtain ⟨hcomm, hown, hfirst, _⟩ := hnarrowed "blue" "green" hblue (by decide)
  have hcount : (ofNodes colorSets (narrowed (some onlyRed) "blue")).get? "green" = some 1 := by
    decide +kernel
  have hone : (ofNodes colorSets (narrowed (some onlyRed) "blue")).countOf "green" = 1 := by
    rw [countOf, hcount]; rfl
  refine ⟨(hentries "blue" 3).mpr ⟨hblue, by decide +kernel, by decide +kernel⟩,
    hperm _ (List.reverse_perm colorSets).symm, ⟨hblue, by decide, hgreen⟩, hcount,
    (hcomm hgreen).symm.trans hcount,
    hone ▸ hown, hone ▸ hfirst, ?_⟩
  exact ((hnarrowed "blue" "red" hblue (by decide)).2.2.2 hred).1

end DocSearch.KeywordCloud
