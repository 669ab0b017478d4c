import DocSearch.Proofs.Query.AnywhereSteps
import DocSearch.Proofs.Query.FewStates
import Mathlib.Data.List.Infix
import Mathlib.Data.List.ProdSigma
import Mathlib.Data.Nat.Find

/-!
# Patterns for a text that stands anywhere

`Wildcard.isSearchable` follows the states of an automaton and gives up at a thousand.  Here it is
shown that the pattern for a text with a run on each side has few states.

* The state tells how the text that was read ends: `Automaton.readState` is the state behind some
  characters and the bytes of a further one, and a byte takes it to the next such state
  (`Automaton.step_readState`).
* Which beginnings of the text looked for it ends with follows from the longest one of them
  (`Automaton.readState_eq_stateBelow`), as for a table of partial matches.
* So all states are among `Automaton.allStates`, eight for each character and eighty more
  (`Automaton.readState_mem_allStates`, `Automaton.length_allStates`).

The index can therefore look anywhere for a text of up to 115 characters (`isSearchable_anywhere`),
for which there are a thousand states at most.
-/

namespace DocSearch.Wildcard

namespace Automaton

variable {cs : List Char}

/-! ## What was read -/

section

variable (cs : List Char) (w : List (List Nat)) (β : List Nat)

/-- The bytes of the characters `cs`. -/
def spelled : List (List Nat) := cs.map codes

/-- The bytes of the character at `k`, none beyond the end. -/
def spelledAt (k : Nat) : List Nat := ((spelled cs)[k]?).getD []

/-- Whether the text read so far, `w`, ends with all characters before `k`, and goes on with `β` as
the character at `k` does. -/
def isActive (k : Nat) : Bool := decide ((spelled cs).take k <:+ w ∧ β <+: spelledAt cs k)

/-- The state behind the characters `w`, by their bytes, and the bytes `β` of a further one. -/
def readState : List Place :=
  stateAt cs (leadOf β, β.length) (isActive cs w β) (decide (spelled cs <:+: w))

end

/-- Within the text `spelledAt` is the encoding of a character. -/
theorem spelledAt_eq {k : Nat} (hk : k < cs.length) : spelledAt cs k = codes cs[k] := by
  simp [spelledAt, spelled, hk]

theorem prefix_concat_iff {β l : List Nat} {b : Nat} :
    β ++ [b] <+: l ↔ β <+: l ∧ l[β.length]? = some b := by
  constructor
  · rintro ⟨r, rfl⟩
    exact ⟨⟨b :: r, by simp⟩, by simp⟩
  · rintro ⟨⟨r, rfl⟩, hb⟩
    cases r with
    | nil => simp at hb
    | cons d r =>
      have hd : d = b := by simpa using hb
      exact ⟨r, by simp [hd]⟩

theorem settled_bytes (e j : Nat) : (settled e (j + 1)).2 = 0 ∨
    (settled e (j + 1) = (e, j + 1) ∧ j + 1 < 4) := by
  rw [settled]
  split
  · rename_i h
    obtain ⟨r, hr⟩ := Option.isSome_iff_exists.mp h
    obtain ⟨rs, hrs, hr⟩ := Option.bind_eq_some_iff.mp hr
    obtain ⟨hj, _⟩ := List.getElem?_eq_some_iff.mp hr
    have hlengths : ∀ rs ∈ encodingsOfAny, rs.length ≤ 4 := by decide
    have hfour := hlengths rs (List.mem_of_getElem? hrs)
    exact .inr ⟨rfl, by omega⟩
  · exact .inl rfl

/-- A byte is read on in the encoding that was begun, or ends a character. -/
theorem runNext?_read {β : List Nat} {byte : Nat} {y : Nat × Nat}
    (h : runNext? (leadOf β, β.length) byte = some y) :
    y.2 = 0 ∨ (y = (leadOf (β ++ [byte]), (β ++ [byte]).length) ∧ y.2 < 4) := by
  cases β with
  | nil =>
    obtain ⟨r, hr, rfl⟩ := Option.map_eq_some_iff.mp h
    refine (settled_bytes r.2 0).imp_right ?_
    rintro ⟨heq, hfour⟩
    rw [heq]
    refine ⟨?_, hfour⟩
    simp [leadOf, hr]
  | cons b β =>
    rw [List.length_cons, runNext?] at h
    split at h
    · cases h
      refine (settled_bytes (leadOf (b :: β)) (β.length + 1)).imp_right ?_
      rintro ⟨heq, hfour⟩
      rw [heq]
      refine ⟨?_, hfour⟩
      simp [leadOf]
    · cases h

theorem concat_suffix_concat_iff {α : Type} {l m : List α} {x y : α} :
    l ++ [x] <:+ m ++ [y] ↔ l <:+ m ∧ x = y := by
  rw [List.suffix_concat_iff]
  constructor
  · rintro (h | ⟨t, heq, ht⟩)
    · simp at h
    · obtain ⟨hl, hx⟩ := List.append_inj' heq rfl
      exact ⟨hl ▸ ht, List.singleton_inj.mp hx⟩
  · rintro ⟨ht, rfl⟩
    exact .inr ⟨l, rfl, ht⟩

theorem take_succ_spelled {k : Nat} (hk : k < cs.length) :
    (spelled cs).take (k + 1) = (spelled cs).take k ++ [codes cs[k]] := by
  have hlength : k < (spelled cs).length := by rwa [spelled, List.length_map]
  rw [List.take_succ_eq_append_getElem hlength]
  simp [spelled]

/-- `isActive` in terms of the character at `k`. -/
theorem isActive_iff {w : List (List Nat)} {β : List Nat} {k : Nat} (hk : k < cs.length) :
    isActive cs w β k = true ↔ (spelled cs).take k <:+ w ∧ β <+: codes cs[k] := by
  rw [isActive, decide_eq_true_eq, spelledAt_eq hk]

/-- A state depends on which characters of the text are active only. -/
theorem stateAt_congr {x : Nat × Nat} {active active' : Nat → Bool} {found found' : Bool}
    (hactive : ∀ k < cs.length, active k = active' k) (hfound : found = found') :
    stateAt cs x active found = stateAt cs x active' found' := by
  have hfilter : (List.range cs.length).filter active = (List.range cs.length).filter active' :=
    List.filter_congr fun k hk => hactive k (List.mem_range.mp hk)
  rw [stateAt, stateAt, hfilter, hfound]

/-- A character of the text that reading is in the middle of begins as the one that the run in front
reads. -/
theorem isActive_aligned {w : List (List Nat)} {β : List Nat} {k : Nat} (hk : k < cs.length)
    (hactive : isActive cs w β k = true) :
    (leadOf β, β.length).2 = 0 ∨ (leadOf β, β.length).1 = leadOf (codes cs[k]) := by
  cases β with
  | nil => exact .inl rfl
  | cons b β =>
    obtain ⟨r, hr⟩ := ((isActive_iff hk).mp hactive).2
    rw [← hr]
    exact .inr rfl

/-- The characters that go on with a `byte` begin with the bytes that were read and this one. -/
theorem goesOn_isActive_iff {w : List (List Nat)} {β : List Nat} {byte k : Nat}
    (hk : k < cs.length) :
    goesOn cs (isActive cs w β) β.length byte k = true ↔
      (spelled cs).take k <:+ w ∧ β ++ [byte] <+: codes cs[k] := by
  rw [goesOn_iff hk, isActive_iff hk, and_assoc, prefix_concat_iff]

/-- If the character that the run reads ends with a `byte`, so does every one of the text that goes
on with it. -/
theorem goesOn_iff_of_ends (hline : '\n' ∉ cs) {w : List (List Nat)} {β : List Nat} {byte : Nat}
    {y : Nat × Nat}
    (hrun : runNext? (leadOf β, β.length) byte = some y) (hy : y.2 = 0) {k : Nat}
    (hk : k < cs.length) :
    goesOn cs (isActive cs w β) β.length byte k = true ↔
      (spelled cs).take (k + 1) <:+ w ++ [β ++ [byte]] := by
  rw [take_succ_spelled hk, concat_suffix_concat_iff, goesOn_isActive_iff hk]
  refine and_congr_right fun hbefore => ⟨fun hbegins => ?_, fun heq => heq ▸ List.prefix_refl _⟩
  have hnext := runNext?_of_goesOn hline (fun k hk => isActive_aligned hk) hk
    ((goesOn_isActive_iff hk).mpr ⟨hbefore, hbegins⟩)
  rw [hrun, Option.some.injEq] at hnext
  have hlength : ¬ β.length + 1 < (codes cs[k]).length := by
    intro hlt
    rw [if_pos hlt] at hnext
    rw [hnext] at hy
    cases hy
  have hle := hbegins.length_le
  refine (hbegins.eq_of_length ?_).symm
  rw [List.length_append, List.length_singleton] at hle ⊢
  omega

/-- A `byte` takes the state behind some characters and bytes to the one that is also behind this
byte, or fails. -/
theorem step_readState (hline : '\n' ∉ cs) {m : Nat} (hm : cs.length = m + 1) (w : List (List Nat))
    (β : List Nat)
    (byte : Nat) : (ofPattern (anywhere cs)).step (readState cs w β) byte =
      ((runNext? (leadOf β, β.length) byte).map fun y =>
        if y.2 = 0 then readState cs (w ++ [β ++ [byte]]) [] else
          readState cs w (β ++ [byte])).getD [] := by
  rw [readState, step_stateAt hline (fun k hk => isActive_aligned hk) hm]
  cases hrun : runNext? (leadOf β, β.length) byte with
  | none => rfl
  | some y =>
    rw [Option.map_some, Option.getD_some, Option.map_some, Option.getD_some]
    by_cases hy : y.2 = 0
    · rw [if_pos hy, if_pos hy]
      -- The byte ends a character, for the run in front as for the text.
      refine stateAt_congr (fun k hk => ?_) ?_
      · rw [Bool.eq_iff_iff, isActive_iff hk]
        cases k with
        | zero => simp
        | succ k =>
          have hends := goesOn_iff_of_ends (w := w) hline hrun hy (Nat.lt_of_succ_lt hk)
          simpa using hends
      · have hall : spelled cs = (spelled cs).take (m + 1) :=
          (List.take_of_length_le (by simp [spelled, hm])).symm
        have hends := goesOn_iff_of_ends (w := w) hline hrun hy (k := m) (by omega)
        rw [← hall] at hends
        rw [Bool.eq_iff_iff, Bool.or_eq_true, hends, decide_eq_true_eq, decide_eq_true_eq,
          List.infix_concat_iff, or_comm]
    -- Both are in the middle of a character, with one byte more.
    · obtain ⟨rfl, _⟩ := (runNext?_read hrun).resolve_left hy
      rw [if_neg hy, if_neg hy]
      refine stateAt_congr (fun k hk => ?_) rfl
      rw [Bool.eq_iff_iff, goesOn_isActive_iff hk, isActive_iff hk]

/-! ## All states -/

section

variable (cs : List Char)

/-- The state in which the text read so far ends with the first `last` characters and some `bytes`
of the next one, and with no more characters than these. -/
def stateBelow (last bytes : Nat) (found : Bool) : List Place :=
  stateAt cs (leadOf ((spelledAt cs last).take bytes), ((spelledAt cs last).take bytes).length)
    (fun k => decide (k ≤ last) && isActive cs ((spelled cs).take last)
      ((spelledAt cs last).take bytes) k) found

/-- The states with characters of the text to go on with, and those without. -/
def allStates : List (List Place) :=
  (List.range cs.length ×ˢ List.range 4 ×ˢ [false, true]).map
    (fun x => stateBelow cs x.1 x.2.1 x.2.2) ++
    (List.range 10 ×ˢ List.range 4 ×ˢ [false, true]).map fun x =>
    stateAt cs (x.1, x.2.1) (fun _ => false) x.2.2

/-- There are eight states for each character, and eighty without a character to go on with. -/
theorem length_allStates : (allStates cs).length = 8 * cs.length + 80 := by
  simp only [allStates, List.length_append, List.length_map, List.length_product, List.length_range,
    List.length_cons, List.length_nil]
  omega

end

theorem leadOf_lt (β : List Nat) : leadOf β < 10 := by
  cases β with
  | nil => decide
  | cons b β =>
    rw [leadOf]
    cases hlead : leading? b with
    | none => decide
    | some r =>
      have hmem : r ∈ encodingsOfAny.zipIdx := List.mem_of_find?_eq_some hlead
      exact (List.mem_zipIdx hmem).2.1

/-- What was read counts only by the longest beginning of the text that it ends with, `last`. -/
theorem readState_eq_stateBelow {w : List (List Nat)} {β : List Nat} {last : Nat}
    (hlast : last < cs.length)
    (hactive : isActive cs w β last = true)
    (hgreatest : ∀ k < cs.length, isActive cs w β k = true → k ≤ last) :
    readState cs w β = stateBelow cs last β.length (decide (spelled cs <:+: w)) := by
  obtain ⟨hends, hgoes⟩ := (isActive_iff hlast).mp hactive
  have hβ : (spelledAt cs last).take β.length = β := by
    rw [spelledAt_eq hlast]
    exact (List.prefix_iff_eq_take.mp hgoes).symm
  rw [readState, stateBelow, hβ]
  refine stateAt_congr (fun k hk => ?_) rfl
  rw [Bool.eq_iff_iff, Bool.and_eq_true, decide_eq_true_eq, isActive_iff hk]
  constructor
  · intro h
    have hle := hgreatest k hk ((isActive_iff hk).mpr h)
    refine ⟨hle, (isActive_iff hk).mpr ⟨List.suffix_of_suffix_length_le h.1 hends ?_, h.2⟩⟩
    rw [List.length_take, List.length_take]
    omega
  · rintro ⟨_, h⟩
    obtain ⟨hsuffix, hbegins⟩ := (isActive_iff hk).mp h
    exact ⟨hsuffix.trans hends, hbegins⟩

/-- Every state that reading comes to is one of `allStates`. -/
theorem readState_mem_allStates (w : List (List Nat)) {β : List Nat} (hβ : β.length < 4) :
    readState cs w β ∈ allStates cs := by
  have hfound : ∀ found : Bool, found ∈ [false, true] := by decide
  by_cases hany : ∃ k < cs.length, isActive cs w β k = true
  · obtain ⟨k, hk, hactive⟩ := hany
    have hspec := Nat.findGreatest_spec (P := fun k => k < cs.length ∧ isActive cs w β k = true)
      (Nat.le_of_lt hk) ⟨hk, hactive⟩
    have heq := readState_eq_stateBelow hspec.1 hspec.2 fun j hj hactive =>
      Nat.le_findGreatest (Nat.le_of_lt hj) ⟨hj, hactive⟩
    rw [heq]
    refine List.mem_append_left _ (List.mem_map.mpr ⟨(_, _, _), ?_, rfl⟩)
    exact List.mem_product.mpr ⟨List.mem_range.mpr hspec.1,
      List.mem_product.mpr ⟨List.mem_range.mpr hβ, hfound _⟩⟩
  · have hnone :
      readState cs w β = stateAt cs (leadOf β, β.length) (fun _ => false)
      (decide (spelled cs <:+: w)) := by
      refine stateAt_congr (fun k hk => ?_) rfl
      rw [Bool.eq_false_iff]
      exact fun hactive => hany ⟨k, hk, hactive⟩
    rw [hnone]
    refine List.mem_append_right _ (List.mem_map.mpr ⟨(_, _, _), ?_, rfl⟩)
    exact List.mem_product.mpr ⟨List.mem_range.mpr (leadOf_lt β),
      List.mem_product.mpr ⟨List.mem_range.mpr hβ, hfound _⟩⟩

/-- Nothing has been read in the first state. -/
theorem start_anywhere {m : Nat} (hm : cs.length = m + 1) :
    (ofPattern (anywhere cs)).start = readState cs [] [] := by
  have hbefore := behind_character hm fun _ => false
  have hnone : ((List.range cs.length).filter fun _ => false) = [] := List.filter_false _
  rw [hnone, List.flatMap_nil, List.append_nil] at hbefore
  have hstart : (ofPattern (anywhere cs)).start = .before 0 :: behindFirst cs 0 := by
    rw [start, starts_anywhere_zero]
    rfl
  rw [hstart, hbefore]
  refine stateAt_congr (fun k hk => ?_) ?_
  · rw [Bool.eq_iff_iff, isActive_iff hk]
    cases k with
    | zero => simp
    | succ k => simp [take_succ_spelled (Nat.lt_of_succ_lt hk)]
  · have hne : spelled cs ≠ [] := by
      intro heq
      have hlength : (spelled cs).length = m + 1 := by rw [spelled, List.length_map, hm]
      rw [heq] at hlength
      cases hlength
    rw [eq_comm, decide_eq_false_iff_not, List.infix_nil]
    exact hne

end Automaton

/-- The index can look anywhere for a text of up to 115 characters in which there is no line feed,
since `allStates` has then no more than a thousand states. -/
theorem isSearchable_anywhere {cs : List Char} (hline : '\n' ∉ cs) (h : cs.length ≤ 115) :
    isSearchable (anywhere cs) = true := by
  cases cs with
  | nil => decide +kernel
  | cons c cs =>
    have hm : (c :: cs).length = cs.length + 1 := rfl
    have hlength : (Automaton.allStates (c :: cs)).length ≤ stateLimit := by
      rw [Automaton.length_allStates]
      change 8 * (c :: cs).length + 80 ≤ 1000
      omega
    -- What the states have in common is that each tells what was read.
    refine isSearchable_of_reached hlength
      (fun s => ∃ w β, List.length β < 4 ∧ s = Automaton.readState (c :: cs) w β) ?_ ?_ ?_
    · exact ⟨[], [], by decide, Automaton.start_anywhere hm⟩
    · rintro s ⟨w, β, hβ, rfl⟩ byte
      rw [Automaton.step_readState hline hm]
      cases hrun : runNext? (leadOf β, β.length) byte with
      | none => exact .inl rfl
      | some y =>
        rw [Option.map_some, Option.getD_some]
        right
        split
        · exact ⟨_, [], by decide, rfl⟩
        · rename_i hy
          obtain ⟨rfl, hfour⟩ := (Automaton.runNext?_read hrun).resolve_left hy
          exact ⟨_, _, hfour, rfl⟩
    · rintro s ⟨w, β, hβ, rfl⟩
      exact Automaton.readState_mem_allStates w hβ

end DocSearch.Wildcard
