import DocSearch.Proofs.Query.ReadingRuns
import Mathlib.Data.List.Nodup

/-!
# Steps of a pattern that stands anywhere

A state of the automaton of a text with runs around it has three parts (`Automaton.stateAt`):

* where the run in front stands,
* the characters of the text that may be next, or in the middle of which reading is,
* where the run behind the text stands if the text has been found.

What a byte leads to is computed for each part alone (`Automaton.reached_firstRun`,
`Automaton.reached_character`, `Automaton.reached_lastRun`).  A byte takes all of them on together,
or none, as all are in the middle of the same encoding (`Automaton.step_stateAt`).  The places that
two parts lead to are kept once (`Automaton.distinct_stateAt_append`).
-/

namespace DocSearch.Wildcard

/-- The pattern for the text `cs` that stands anywhere. -/
def anywhere (cs : List Char) : List Piece := .run :: (cs.map .literal ++ [.run])

namespace Automaton

/-! ## The parts of the automaton -/

variable {i : Nat}

theorem encodingsOf_of_getElem? {p : List Piece} {q : Piece} (hq : p[i]? = some q) :
    (ofPattern p).encodingsOf i = q.encodings := by
  simp [ofPattern, encodingsOf, hq]

theorem next_of_getElem? {p : List Piece} {q : Piece} (hq : p[i]? = some q) :
    (ofPattern p).next[i]? = some (if q = .run then i else i + 1) := by
  simp [ofPattern, hq]

variable {cs : List Char} {k : Nat}

theorem getElem?_anywhere_zero : (anywhere cs)[0]? = some .run := rfl

theorem getElem?_anywhere_literal (hk : k < cs.length) :
    (anywhere cs)[k + 1]? = some (.literal cs[k]) := by
  rw [anywhere, List.getElem?_cons_succ, List.getElem?_append_left (by rwa [List.length_map])]
  simp [hk]

theorem getElem?_anywhere_last : (anywhere cs)[cs.length + 1]? = some .run := by
  rw [anywhere, List.getElem?_cons_succ, List.getElem?_append_right (by simp)]
  simp

variable (cs) in
/-- The places behind the first `k` characters of the text: before the next character, or before the
last run and behind it. -/
def behindFirst (k : Nat) : List Place :=
  if k < cs.length then [.before (k + 1)] else [.before (k + 1), .before (k + 2)]

theorem placesAt_behindFirst (hk : k ≤ cs.length) :
    placesAt (k + 1) ((cs.drop k).map .literal ++ [.run]) = behindFirst cs k := by
  rcases Nat.lt_or_eq_of_le hk with hlt | rfl
  · rw [List.drop_eq_getElem_cons hlt, List.map_cons, List.cons_append, placesAt, behindFirst,
      if_pos hlt]
    rfl
  · rw [List.drop_length, behindFirst, if_neg (Nat.lt_irrefl _)]
    rfl

theorem starts_anywhere_zero :
    (ofPattern (anywhere cs)).starts[0]? = some (.before 0 :: behindFirst cs 0) := by
  have hplaces := placesAt_behindFirst (Nat.zero_le cs.length)
  rw [List.drop_zero] at hplaces
  rw [← hplaces]
  simp [anywhere, ofPattern, placesAt]

/-- Behind `k` characters reading starts at `behindFirst`. -/
theorem starts_anywhere_succ (hk : k ≤ cs.length) :
    (ofPattern (anywhere cs)).starts[k + 1]? = some (behindFirst cs k) := by
  have hrange : k + 1 < cs.length + 1 + 1 + 1 := by omega
  rw [← placesAt_behindFirst hk]
  simp [anywhere, ofPattern, hrange, List.map_drop, List.drop_append_of_le_length, hk]

/-- From a place in the run in front a `byte` leads on in it, or to the next character. -/
theorem reached_firstRun (x : Nat × Nat) (byte : Nat) :
    (ofPattern (anywhere cs)).reached byte (placeAt 0 x) =
    ((runNext? x byte).map fun y =>
      if y.2 = 0 then .before 0 :: behindFirst cs 0 else [placeAt 0 y]).getD [] := by
  refine reached_run ?_ (encodingsOf_of_getElem? getElem?_anywhere_zero) x byte
  rw [next_of_getElem? getElem?_anywhere_zero]
  change ((ofPattern (anywhere cs)).starts[0]?).getD [] = _
  rw [starts_anywhere_zero]
  rfl

/-- From a place in the run behind the text a `byte` leads on in it, or to the next character. -/
theorem reached_lastRun (x : Nat × Nat) (byte : Nat) :
    (ofPattern (anywhere cs)).reached byte (placeAt (cs.length + 1) x) =
      ((runNext? x byte).map fun y =>
      if y.2 = 0 then behindFirst cs cs.length else [placeAt (cs.length + 1) y]).getD [] := by
  refine reached_run ?_ (encodingsOf_of_getElem? getElem?_anywhere_last) x byte
  rw [next_of_getElem? getElem?_anywhere_last]
  change ((ofPattern (anywhere cs)).starts[cs.length + 1]?).getD [] = _
  rw [starts_anywhere_succ (Nat.le_refl _)]
  rfl

/-- Nothing is read behind the last run. -/
theorem reached_end (byte : Nat) :
    (ofPattern (anywhere cs)).reached byte (.before (cs.length + 2)) = [] := by
  have hnone : (ofPattern (anywhere cs)).encodingsOf (cs.length + 2) = [] := by
    simp [anywhere, ofPattern, encodingsOf]
  rw [reached, hnone]
  rfl

/-- From a place in a character of the text its next `byte` leads on in it, or behind it. -/
theorem reached_character (hk : k < cs.length) (j byte : Nat) :
    (ofPattern (anywhere cs)).reached byte (placeAt (k + 1) (0, j)) =
      if (codes cs[k])[j]? = some byte then
        if j + 1 < (codes cs[k]).length then [placeAt (k + 1) (0, j + 1)]
        else behindFirst cs (k + 1)
      else [] := by
  refine reached_literal ?_ (encodingsOf_of_getElem? (getElem?_anywhere_literal hk)) j byte
  rw [next_of_getElem? (getElem?_anywhere_literal hk)]
  change ((ofPattern (anywhere cs)).starts[k + 1 + 1]?).getD [] = _
  rw [starts_anywhere_succ hk]
  rfl

/-! ## One step -/

theorem flatMap_filter_eq {α : Type} {p q : Nat → Bool} {f g : Nat → List α} : ∀ {l : List Nat},
    (∀ k ∈ l, q k = true → p k = true) →
    (∀ k ∈ l, p k = true → f k = if q k = true then g k else []) →
    (l.filter p).flatMap f = (l.filter q).flatMap g
  | [], _, _ => rfl
  | k :: l, hqp, hfg => by
    obtain ⟨hqp, hrest⟩ := List.forall_mem_cons.mp hqp
    obtain ⟨hfg, hrest'⟩ := List.forall_mem_cons.mp hfg
    have ih := flatMap_filter_eq hrest hrest'
    by_cases hp : p k = true
    · rw [List.filter_cons_of_pos hp, List.flatMap_cons, hfg hp, ih]
      by_cases hq : q k = true
      · rw [if_pos hq, List.filter_cons_of_pos hq, List.flatMap_cons]
      · rw [if_neg hq, List.filter_cons_of_neg hq, List.nil_append]
    · rw [List.filter_cons_of_neg hp, List.filter_cons_of_neg (mt hqp hp), ih]

theorem testBit_begun (begun n k : Nat) :
    (begun ||| (1 <<< n)).testBit k = (begun.testBit k || decide (n = k)) := by
  rw [Nat.testBit_or, Nat.one_shiftLeft, Nat.testBit_two_pow]

/-- Different places are kept as they are. -/
theorem distinct_of_nodup : ∀ {ps : List Place} {begun : Nat}, ps.Nodup →
    (∀ k, .before k ∈ ps → begun.testBit k = false) → distinct begun ps = ps
  | [], _, _, _ => rfl
  | .before n :: ps, begun, hnodup, hnew => by
    obtain ⟨hn, hnodup⟩ := List.nodup_cons.mp hnodup
    have hbit : ¬ begun.testBit n = true := by
      rw [hnew n (.head _)]
      exact Bool.false_ne_true
    rw [distinct, if_neg hbit, distinct_of_nodup hnodup]
    intro k hk
    have hne : n ≠ k := fun heq => hn (heq ▸ hk)
    rw [testBit_begun, hnew k (.tail _ hk), decide_eq_false hne]
    rfl
  | .inside n e j :: ps, begun, hnodup, hnew => by
    have ih := distinct_of_nodup (List.nodup_cons.mp hnodup).2 fun k hk => hnew k (.tail _ hk)
    rw [distinct, ih]
    intro _ heq
    cases heq

/-- Places that were there before, as `begun` says, are left out. -/
theorem distinct_of_begun {begun : Nat} : ∀ {qs : List Place},
    (∀ q ∈ qs, ∃ k, q = .before k ∧ begun.testBit k = true) → distinct begun qs = []
  | [], _ => rfl
  | q :: qs, h => by
    obtain ⟨⟨k, rfl, hk⟩, hqs⟩ := List.forall_mem_cons.mp h
    rw [distinct, if_pos hk, distinct_of_begun hqs]

/-- Places that are there already are left out at the end. -/
theorem distinct_append_of_mem {qs : List Place} : ∀ {ps : List Place} {begun : Nat},
    (∀ q ∈ qs, ∃ k, q = .before k ∧ (begun.testBit k = true ∨ .before k ∈ ps)) →
    distinct begun (ps ++ qs) = distinct begun ps
  | [], begun, h => by
    refine distinct_of_begun fun q hq => ?_
    obtain ⟨k, rfl, hk⟩ := h q hq
    exact ⟨k, rfl, hk.resolve_right List.not_mem_nil⟩
  | .before n :: ps, begun, h => by
    -- A set that has place `n` marked keeps the hypothesis, however `begun'` came by the mark.
    have hrest : ∀ begun' : Nat,
        (∀ k : Nat, begun'.testBit k = (begun.testBit k || decide (n = k))) →
        ∀ q ∈ qs, ∃ k, q = .before k ∧ (begun'.testBit k = true ∨ .before k ∈ ps) := by
      intro begun' hbegun q hq
      obtain ⟨k, rfl, hk⟩ := h q hq
      refine ⟨k, rfl, ?_⟩
      rw [hbegun, Bool.or_eq_true, decide_eq_true_eq]
      rcases hk with hk | hk
      · exact .inl (.inl hk)
      · rcases List.mem_cons.mp hk with heq | hk
        · cases heq
          exact .inl (.inr rfl)
        · exact .inr hk
    rw [List.cons_append, distinct, distinct]
    split
    · rename_i hbit
      -- `n` is marked already: it is left out on both sides, and `begun` stays.
      refine distinct_append_of_mem (hrest begun fun k => ?_)
      by_cases heq : n = k
      · rw [← heq, hbit]
        rfl
      · rw [decide_eq_false heq, Bool.or_false]
    · rw [distinct_append_of_mem (hrest _ (testBit_begun begun n))]
  | .inside n e j :: ps, begun, h => by
    have hrest : ∀ q ∈ qs, ∃ k, q = .before k ∧ (begun.testBit k = true ∨ .before k ∈ ps) := by
      intro q hq
      obtain ⟨k, rfl, hk⟩ := h q hq
      refine ⟨k, rfl, hk.imp_right fun hmem => ?_⟩
      rcases List.mem_cons.mp hmem with heq | hmem
      · cases heq
      · exact hmem
    have ih := distinct_append_of_mem hrest
    rw [List.cons_append, distinct, distinct, ih]
    · intro _ heq
      cases heq
    · intro _ heq
      cases heq

theorem placeAt_inj {i k : Nat} {x y : Nat × Nat} (h : placeAt i x = placeAt k y) : i = k := by
  obtain ⟨_, _ | _⟩ := x <;> obtain ⟨_, _ | _⟩ := y <;> simp_all [placeAt]

variable (cs) in
/-- The places in the run behind the text if the text is `found`: between two characters the end is
one, too. -/
def inLastRun (x : Nat × Nat) (found : Bool) : List Place :=
  if found then (if x.2 = 0 then behindFirst cs cs.length else [placeAt (cs.length + 1) x]) else []

theorem nodup_inLastRun (x : Nat × Nat) (found : Bool) : (inLastRun cs x found).Nodup := by
  rw [inLastRun, behindFirst, if_neg (Nat.lt_irrefl _)]
  split
  · split
    · simp
    · exact List.nodup_singleton _
  · exact List.nodup_nil

theorem exists_of_mem_inLastRun {x : Nat × Nat} {found : Bool} {p : Place}
    (hp : p ∈ inLastRun cs x found) :
    ∃ i y, cs.length < i ∧ p = placeAt i y := by
  rw [inLastRun, behindFirst, if_neg (Nat.lt_irrefl _)] at hp
  split at hp
  · split at hp
    · rcases List.mem_cons.mp hp with rfl | hp
      · exact ⟨_, (0, 0), Nat.lt_succ_self _, rfl⟩
      · exact ⟨cs.length + 2, (0, 0), by omega, List.mem_singleton.mp hp⟩
    · exact ⟨_, x, Nat.lt_succ_self _, List.mem_singleton.mp hp⟩
  · cases hp

/-- A `byte` leads on in the last run, or out of it. -/
theorem flatMap_inLastRun (x : Nat × Nat) (found : Bool) (byte : Nat) :
    (inLastRun cs x found).flatMap ((ofPattern (anywhere cs)).reached byte) =
      ((runNext? x byte).map fun y => inLastRun cs y found).getD [] := by
  cases found with
  | false => cases runNext? x byte <;> rfl
  | true =>
    simp only [inLastRun, if_true]
    rw [← reached_lastRun]
    split
    · rename_i hx
      have hplace : placeAt (cs.length + 1) x = .before (cs.length + 1) := by
        obtain ⟨e, j⟩ := x
        obtain rfl : j = 0 := hx
        rfl
      rw [behindFirst, if_neg (Nat.lt_irrefl _), hplace, List.flatMap_cons, List.flatMap_singleton,
        reached_end, List.append_nil]
    · rw [List.flatMap_singleton]

variable (cs) in
/-- The state with the run in front at `x`, before the next byte of the characters that are
`active`, and in the last run if the text is `found`. -/
def stateAt (x : Nat × Nat) (active : Nat → Bool) (found : Bool) : List Place :=
  placeAt 0 x :: (((List.range cs.length).filter active).map fun k => placeAt (k + 1) (0, x.2)) ++
    inLastRun cs x found

/-- The parts of a state have no place in common. -/
theorem nodup_stateAt (x : Nat × Nat) (active : Nat → Bool) (found : Bool) :
    (stateAt cs x active found).Nodup := by
  have hcharacters :
      (((List.range cs.length).filter active).map fun k => placeAt (k + 1) (0, x.2)).Nodup := by
    refine List.Nodup.map (fun j k hjk => ?_) (List.nodup_range.filter _)
    have heq := placeAt_inj hjk
    omega
  rw [stateAt, List.cons_append, List.nodup_cons, List.nodup_append]
  refine ⟨?_, hcharacters, nodup_inLastRun x found, ?_⟩
  · intro hmem
    rcases List.mem_append.mp hmem with hmem | hmem
    · obtain ⟨k, _, hk⟩ := List.mem_map.mp hmem
      have heq := placeAt_inj hk
      omega
    · obtain ⟨i, y, hi, hy⟩ := exists_of_mem_inLastRun hmem
      have heq := placeAt_inj hy
      omega
  · intro p hp q hq heq
    obtain ⟨k, hk, rfl⟩ := List.mem_map.mp hp
    have hk := List.mem_range.mp (List.mem_of_mem_filter hk)
    obtain ⟨i, y, hi, rfl⟩ := exists_of_mem_inLastRun hq
    have heq := placeAt_inj heq
    omega

theorem distinct_stateAt (x : Nat × Nat) (active : Nat → Bool) (found : Bool) :
    distinct 0 (stateAt cs x active found) = stateAt cs x active found :=
  distinct_of_nodup (nodup_stateAt x active found) fun k _ => Nat.zero_testBit k

/-- The places in the last run are there once, also if the text is found `again`. -/
theorem distinct_stateAt_append (active : Nat → Bool) (again found : Bool) :
    distinct 0 (stateAt cs (0, 0) active again ++ inLastRun cs (0, 0) found) =
      stateAt cs (0, 0) active (found || again) := by
  cases found with
  | false => exact (congrArg (distinct 0) (List.append_nil _)).trans (distinct_stateAt _ _ _)
  | true =>
    cases again with
    | false =>
      have hnone : stateAt cs (0, 0) active false ++ inLastRun cs (0, 0) true =
          stateAt cs (0, 0) active true :=
        congrArg (· ++ inLastRun cs (0, 0) true) (List.append_nil _)
      rw [hnone, distinct_stateAt]
      rfl
    | true =>
      rw [distinct_append_of_mem, distinct_stateAt]
      · rfl
      · intro p hp
        have hmem : p ∈ stateAt cs (0, 0) active true := List.mem_append_right _ hp
        rw [inLastRun, if_pos rfl, if_pos rfl, behindFirst, if_neg (Nat.lt_irrefl _)] at hp
        rcases List.mem_cons.mp hp with rfl | hp
        · exact ⟨_, rfl, .inr hmem⟩
        · obtain rfl := List.mem_singleton.mp hp
          exact ⟨_, rfl, .inr hmem⟩

variable (cs) in
/-- The characters that go on with a `byte`, among those `active`. -/
def goesOn (active : Nat → Bool) (bytes byte k : Nat) : Bool :=
  active k && ((cs[k]?).bind fun c => (codes c)[bytes]?) == some byte

theorem goesOn_iff {active : Nat → Bool} {bytes byte k : Nat} (hk : k < cs.length) :
    goesOn cs active bytes byte k = true ↔ active k = true ∧ (codes cs[k])[bytes]? = some byte := by
  simp [goesOn, hk]

/-- Behind a character: before the text, behind each character that was read and in the last run. -/
theorem behind_character {m : Nat} (hm : cs.length = m + 1) (q : Nat → Bool) :
    (.before 0 :: behindFirst cs 0) ++
      ((List.range cs.length).filter q).flatMap (fun k => behindFirst cs (k + 1)) =
        stateAt cs (0, 0) (fun k => k == 0 || q (k - 1)) (q m) := by
  have hfirst : behindFirst cs 0 = [.before 1] := by
    rw [behindFirst, if_pos (by omega)]
  have hbehind : ∀ k ∈ (List.range m).filter q,
      behindFirst cs (k + 1) = [Place.before (k + 2)] := by
    intro k hk
    have hk := List.mem_range.mp (List.mem_of_mem_filter hk)
    rw [behindFirst, if_pos (by omega)]
  have hfront : ((List.range m).filter q).flatMap (fun k => behindFirst cs (k + 1)) =
      ((List.range m).filter q).map fun k => Place.before (k + 2) := by
    rw [List.flatMap_congr hbehind, List.map_eq_flatMap]
  -- Only the last character, at place `m`, has the last run behind it.
  have hend :
      ([m].filter q).flatMap (fun k => behindFirst cs (k + 1)) = inLastRun cs (0, 0) (q m) := by
    cases hq : q m <;> simp [hq, hm, inLastRun]
  have hactive : (List.range (m + 1)).filter (fun k => k == 0 || q (k - 1)) =
      0 :: ((List.range m).filter q).map (· + 1) := by
    rw [List.range_succ_eq_map, List.filter_cons_of_pos rfl, List.filter_map]
    rfl
  rw [stateAt, hm, hactive, ← hm, hfirst]
  rw [hm, List.range_succ, List.filter_append, List.flatMap_append, hfront, hend]
  simp [placeAt, Function.comp_def]

section

variable {x : Nat × Nat} {active : Nat → Bool} {found : Bool} (hline : '\n' ∉ cs)
variable (haligned : ∀ k, (hk : k < cs.length) → active k = true → x.2 = 0 ∨
  x.1 = leadOf (codes cs[k]))

include hline haligned

theorem runNext?_of_goesOn {byte k : Nat} (hk : k < cs.length)
    (h : goesOn cs active x.2 byte k = true) :
    runNext? x byte = some (if x.2 + 1 < (codes cs[k]).length then
      (leadOf (codes cs[k]), x.2 + 1) else (0, 0)) := by
  obtain ⟨hactive, hbyte⟩ := (goesOn_iff hk).mp h
  have hc : cs[k] ≠ '\n' := fun heq => hline (heq ▸ List.getElem_mem hk)
  exact runNext?_codes hc (haligned k hk hactive) hbyte

omit hline haligned in
/-- The characters that do not go on with a `byte` are not read any further. -/
theorem flatMap_characters {byte : Nat} {f : Nat → List Place}
    (hf : ∀ k, k < cs.length → goesOn cs active x.2 byte k = true →
      (ofPattern (anywhere cs)).reached byte (placeAt (k + 1) (0, x.2)) = f k) :
    (((List.range cs.length).filter active).map fun k => placeAt (k + 1) (0, x.2)).flatMap
        ((ofPattern (anywhere cs)).reached byte) =
      ((List.range cs.length).filter (goesOn cs active x.2 byte)).flatMap f := by
  rw [List.flatMap_map]
  refine flatMap_filter_eq (fun k hk hgoes => ?_) (fun k hk hactive => ?_)
  · exact ((goesOn_iff (List.mem_range.mp hk)).mp hgoes).1
  · have hk := List.mem_range.mp hk
    split
    · rename_i hgoes
      exact hf k hk hgoes
    · rename_i hgoes
      have hbyte : ¬ (codes cs[k])[x.2]? = some byte :=
        fun hbyte => hgoes ((goesOn_iff hk).mpr ⟨hactive, hbyte⟩)
      rw [reached_character hk, if_neg hbyte]

/-- A `byte` takes the run and the text to the next byte or the next character together. -/
theorem step_stateAt {m : Nat} (hm : cs.length = m + 1) (byte : Nat) :
    (ofPattern (anywhere cs)).step (stateAt cs x active found) byte =
      ((runNext? x byte).map fun y =>
      if y.2 = 0 then
        stateAt cs (0, 0) (fun k => k == 0 || goesOn cs active x.2 byte (k - 1))
          (found || goesOn cs active x.2 byte m)
      else stateAt cs y (goesOn cs active x.2 byte) found).getD [] := by
  rw [step, stateAt, List.flatMap_append, List.flatMap_cons, reached_firstRun, flatMap_inLastRun]
  cases hrun : runNext? x byte with
  | none =>
    -- No character goes on with a byte that stops the run (`runNext?_of_goesOn`), so the state is
    -- empty.
    have hnone := flatMap_characters (f := fun _ => []) fun k hk hgoes => by
      rw [runNext?_of_goesOn hline haligned hk hgoes] at hrun
      cases hrun
    have hnil : ∀ l : List Nat, l.flatMap (fun _ => ([] : List Place)) = [] :=
      fun l => List.flatMap_eq_nil_iff.mpr fun _ _ => rfl
    rw [hnone, hnil]
    rfl
  | some y =>
    have hsome := flatMap_characters
      (f := fun k => if y.2 = 0 then behindFirst cs (k + 1) else [placeAt (k + 1) (0, y.2)])
      fun k hk hgoes => by
        have hy := runNext?_of_goesOn hline haligned hk hgoes
        rw [hrun, Option.some.injEq] at hy
        rw [reached_character hk, if_pos ((goesOn_iff hk).mp hgoes).2, hy]
        split
        · rfl
        · rfl
    rw [hsome]
    -- Either the byte ends a character, in the run and in the text at once, or it ends none.
    by_cases hy : y.2 = 0
    · have hlast : inLastRun cs y found = inLastRun cs (0, 0) found := by
        rw [inLastRun, if_pos hy]
        rfl
      simp only [hy, hlast, if_true, Option.map_some, Option.getD_some]
      rw [behind_character hm]
      exact distinct_stateAt_append _ _ found
    · simp only [hy, if_false, Option.map_some, Option.getD_some]
      rw [← List.map_eq_flatMap]
      exact distinct_stateAt y _ found

end

end Automaton

end DocSearch.Wildcard
