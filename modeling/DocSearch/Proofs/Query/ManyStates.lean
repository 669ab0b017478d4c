import DocSearch.Query.Automaton
import Mathlib.Data.List.Induction
import Mathlib.Data.List.Nodup
import Mathlib.Data.List.Perm.Subperm
import Mathlib.Data.Nat.Find

/-!
# Patterns with too many states

The states of an automaton are noted until none of those noted is left to be followed.

* The invariant is `Automaton.Followed`: a state that is known is left to be followed, or the states
  that follow it are known.  To follow one keeps it (`Automaton.Followed.note`).
* So an automaton with few enough states has all of them in one list
  (`Automaton.exists_closed_of_hasAtMost`), and comes to no more different ones than may be noted
  (`Automaton.length_le_of_hasAtMost`).
* A byte may stand for others in the same ranges, so only some bytes need to be tried
  (`Automaton.step_mem_successors`).

To show that the index cannot look for a pattern it is then enough to name a thousand different
states that reading comes to.  A pattern of question marks has one before each of them, and the
index cannot look for a thousand (`isSearchable_ones`).  A letter with six question marks behind it
has them as well, after a run (`isSearchable_recent`).
-/

namespace DocSearch.Wildcard

namespace Automaton

/-! ## The states noted -/

/-- A state that is `known` is left to be followed, or the states that follow it are known. -/
def Followed (a : Automaton) (known : List (Nat × List Place))
    (pending : List (List Place)) : Prop :=
  ∀ s, numbered s ∈ known → s ∈ pending ∨ ∀ t ∈ a.successors s, numbered t ∈ known

/-- What is noted is known afterwards, with what was known before; what is new of it is left to be
followed. -/
theorem note_spec :
    ∀ (ss : List (List Place)) (known : List (Nat × List Place)) (pending : List (List Place)),
    known ⊆ (note known pending ss).1 ∧ (∀ t ∈ ss, numbered t ∈ (note known pending ss).1) ∧
    pending ⊆ (note known pending ss).2 ∧
    ∀ s, numbered s ∈ (note known pending ss).1 → numbered s ∈ known ∨ s ∈ (note known pending ss).2
  | [], known, pending => ⟨fun _ => id, List.forall_mem_nil _, fun _ => id, fun _ => .inl⟩
  | t :: ss, known, pending => by
    rw [note]
    split
    · rename_i hknown
      obtain ⟨hold, hnoted, hpending, hnew⟩ := note_spec ss known pending
      refine ⟨hold, ?_, hpending, hnew⟩
      rintro u (_ | ⟨_, hu⟩)
      · exact hold (List.contains_iff_mem.mp hknown)
      · exact hnoted u hu
    · obtain ⟨hold, hnoted, hpending, hnew⟩ := note_spec ss (numbered t :: known) (t :: pending)
      refine ⟨fun x hx => hold (.tail _ hx), ?_, fun s hs => hpending (.tail _ hs), fun s hs => ?_⟩
      · rintro u (_ | ⟨_, hu⟩)
        · exact hold (.head _)
        · exact hnoted u hu
      · rcases hnew s hs with hs | hs
        · rcases List.mem_cons.mp hs with heq | hs
          -- `numbered` keeps the state beside its number, so equal ones are of one state.
          · have hst : s = t := congrArg Prod.snd heq
            exact .inr (hst ▸ hpending (.head _))
          · exact .inl hs
        · exact .inr hs

variable {a : Automaton}

/-- To follow a state `s` is to note the states that follow it. -/
theorem Followed.note {known : List (Nat × List Place)} {s : List Place}
    {pending : List (List Place)}
    (h : a.Followed known (s :: pending)) :
    a.Followed (note known pending (a.successors s)).1 (note known pending (a.successors s)).2 := by
  obtain ⟨hold, hnoted, hpending, hnew⟩ := note_spec (a.successors s) known pending
  intro u hu
  rcases hnew u hu with hu | hu
  · rcases h u hu with hu | hall
    · rcases List.mem_cons.mp hu with rfl | hu
      · exact .inr hnoted
      · exact .inl (hpending hu)
    · exact .inr fun t ht => hold (hall t ht)
  · exact .inl hu

/-- If there are few enough states, they have been noted with all that follow them. -/
theorem exists_closed_of_hasAtMost {most : Nat} : ∀ {fuel : Nat} {known : List (Nat × List Place)}
    {pending : List (List Place)}, a.hasAtMost most fuel known pending = true →
    a.Followed known pending →
    ∃ all, all.length ≤ most ∧ known ⊆ all ∧ a.Followed all []
  | fuel, known, [], h, hfollowed => by
    rw [hasAtMost, decide_eq_true_eq] at h
    exact ⟨known, h, fun _ => id, hfollowed⟩
  | 0, _, _ :: _, h, _ => by
    rw [hasAtMost] at h
    cases h
  | fuel + 1, known, s :: pending, h, hfollowed => by
    rw [hasAtMost, Bool.and_eq_true] at h
    obtain ⟨all, hlength, hsubset, hclosed⟩ := exists_closed_of_hasAtMost h.2 hfollowed.note
    exact ⟨all, hlength, fun x hx => hsubset ((note_spec _ known pending).1 hx), hclosed⟩

/-! ## The states that reading comes to -/

/-- The states that reading comes to: the first one, and those that follow one of them. -/
inductive Comes (a : Automaton) : List Place → Prop
  | start : Comes a a.start
  | next {s t : List Place} (hs : Comes a s) (ht : t ∈ a.successors s) : Comes a t

/-- An automaton that may have `most` states comes to no more than `most` different ones. -/
theorem length_le_of_hasAtMost {most fuel : Nat} {states : List (List Place)}
    (hdifferent : states.Nodup)
    (hcomes : ∀ s ∈ states, a.Comes s)
    (h : a.hasAtMost most fuel [numbered a.start] [a.start] = true) : states.length ≤ most := by
  have hfollowed : a.Followed [numbered a.start] [a.start] := by
    intro s hs
    have hs : s = a.start := congrArg Prod.snd (List.mem_singleton.mp hs)
    exact .inl (hs ▸ .head _)
  obtain ⟨all, hlength, hsubset, hclosed⟩ := exists_closed_of_hasAtMost h hfollowed
  -- A state that is known is followed, as none is left to be, so that the next one is known.
  have hmem : ∀ s, a.Comes s → numbered s ∈ all := by
    intro s hs
    induction hs with
    | start => exact hsubset (.head _)
    | next _ ht ih =>
      rcases hclosed _ ih with hpending | hall
      · cases hpending
      · exact hall _ ht
  have hnodup : (states.map numbered).Nodup := hdifferent.map fun _ _ heq => congrArg Prod.snd heq
  have hsub : states.map numbered ⊆ all := by
    intro x hx
    obtain ⟨s, hs, rfl⟩ := List.mem_map.mp hx
    exact hmem s (hcomes s hs)
  have hcount := (hnodup.subperm hsub).length_le
  rw [List.length_map] at hcount
  exact Nat.le_trans hcount hlength

/-! ## Bytes that stand for others -/

/-- The ends of the ranges at a place of the state are tried. -/
theorem mem_samples {s : List Place} {p : Place} (hp : p ∈ s) {r : ByteRange}
    (hr : r ∈ a.ranges p) :
    r.first ∈ a.samples s ∧ r.last + 1 ∈ a.samples s := by
  have hrange : r ∈ (s.flatMap a.ranges).eraseDups :=
    List.mem_eraseDups.mpr (List.mem_flatMap.mpr ⟨p, hp, hr⟩)
  have hends : ∀ n ∈ [r.first, r.last + 1], n ∈ a.samples s := fun n hn =>
    List.mem_eraseDups.mpr (List.mem_flatMap.mpr ⟨r, hrange, hn⟩)
  exact ⟨hends _ (.head _), hends _ (.tail _ (.head _))⟩

/-- A `byte` leads where another one leads that is in the same ranges. -/
theorem reached_congr {p : Place} {byte other : Nat}
    (h : ∀ r ∈ a.ranges p, r.has byte = r.has other) :
    a.reached byte p = a.reached other p := by
  cases p with
  | before piece =>
    refine List.flatMap_congr fun e he => ?_
    have hany : e.1[0]?.any (·.has byte) = e.1[0]?.any (·.has other) := by
      cases hfirst : e.1[0]? with
      | none => rfl
      | some r => exact h r (List.mem_filterMap.mpr ⟨e.1, List.fst_mem_of_mem_zipIdx he, hfirst⟩)
    rw [hany]
  | inside piece encoding k =>
    have hany : (a.range? piece encoding k).any (·.has byte) =
        (a.range? piece encoding k).any (·.has other) := by
      cases hrange : a.range? piece encoding k with
      | none => rfl
      | some r => exact h r (by rw [ranges, hrange]; exact .head _)
    rw [reached, reached, hany]

/-- A `byte` that is in no range leads nowhere. -/
theorem reached_eq_nil {p : Place} {byte : Nat} (h : ∀ r ∈ a.ranges p, r.has byte = false) :
    a.reached byte p = [] := by
  cases p with
  | before piece =>
    refine List.flatMap_eq_nil_iff.mpr fun e he => if_neg ?_
    cases hfirst : e.1[0]? with
    | none => exact Bool.false_ne_true
    | some r =>
      exact Bool.eq_false_iff.mp
        (h r (List.mem_filterMap.mpr ⟨e.1, List.fst_mem_of_mem_zipIdx he, hfirst⟩))
  | inside piece encoding k =>
    refine if_neg ?_
    cases hrange : a.range? piece encoding k with
    | none => exact Bool.false_ne_true
    | some r => exact Bool.eq_false_iff.mp (h r (by rw [ranges, hrange]; exact .head _))

/-- Every byte leads nowhere or to a state that follows: the greatest of the `samples` that is not
above the byte is in the same ranges as it. -/
theorem step_mem_successors {s : List Place} {byte : Nat} (h : a.step s byte ≠ []) :
    a.step s byte ∈ a.successors s := by
  let sample := Nat.findGreatest (· ∈ a.samples s) byte
  have hle : sample ≤ byte := Nat.findGreatest_le byte
  have hsame : ∀ p ∈ s, ∀ r ∈ a.ranges p, r.has byte = r.has sample := by
    intro p hp r hr
    obtain ⟨hfirst, hlast⟩ := mem_samples hp hr
    -- Both ends of the range are samples, so neither lies between the sample and the byte.
    have hbelow : r.first ≤ byte → r.first ≤ sample := fun hb => Nat.le_findGreatest hb hfirst
    have habove : r.last + 1 ≤ byte → r.last + 1 ≤ sample := fun hb => Nat.le_findGreatest hb hlast
    rw [Bool.eq_iff_iff, ByteRange.has, ByteRange.has, Bool.and_eq_true, Bool.and_eq_true]
    simp only [decide_eq_true_eq]
    omega
  have hstep : a.step s sample = a.step s byte := by
    rw [step, step, List.flatMap_congr fun p hp => (reached_congr (hsame p hp)).symm]
  have hmem : sample ∈ a.samples s := by
    -- Without a sample below it, the byte lies before every range and leads nowhere.
    by_contra hnone
    refine h ?_
    have hnowhere : ∀ p ∈ s, a.reached byte p = [] := by
      refine fun p hp => reached_eq_nil fun r hr => Bool.eq_false_iff.mpr fun hhas => hnone ?_
      rw [ByteRange.has, Bool.and_eq_true] at hhas
      exact Nat.findGreatest_spec (of_decide_eq_true hhas.1) (mem_samples hp hr).1
    rw [step, List.flatMap_eq_nil_iff.mpr hnowhere]
    rfl
  rw [successors, List.mem_filter, ← hstep]
  exact ⟨List.mem_map.mpr ⟨sample, hmem, rfl⟩, by simpa [hstep] using h⟩

/-- The state behind some `bytes`. -/
def read (a : Automaton) (bytes : List Nat) : List Place := bytes.foldl a.step a.start

theorem comes_read {bytes : List Nat} (h : a.read bytes ≠ []) : a.Comes (a.read bytes) := by
  induction bytes using List.reverseRecOn with
  | nil => exact .start
  | append_singleton bytes byte ih =>
    have hlast : a.read (bytes ++ [byte]) = a.step (a.read bytes) byte := by
      rw [read, List.foldl_append]
      rfl
    rw [hlast] at h ⊢
    have hbefore : a.read bytes ≠ [] := by
      intro hnil
      rw [hnil] at h
      exact h rfl
    exact .next (ih hbefore) (step_mem_successors h)

/-! ## Question marks -/

/-- The automaton of `n` question marks. -/
def ofOnes (n : Nat) : Automaton := ofPattern (List.replicate n .one)

theorem placesAt_ones (k : Nat) : ∀ n, placesAt k (List.replicate n .one) = [.before k]
  | 0 => rfl
  | _ + 1 => rfl

theorem starts_ofOnes {k n : Nat} (hk : k ≤ n) : (ofOnes n).starts[k]? = some [.before k] := by
  have hrange : k < n + 1 := Nat.lt_succ_of_le hk
  simp [ofOnes, ofPattern, placesAt_ones, hrange]

theorem next_ofOnes {k n : Nat} (hk : k < n) : (ofOnes n).next[k]? = some (k + 1) := by
  simp [ofOnes, ofPattern, hk]

theorem encodingsOf_ofOnes {k n : Nat} (hk : k < n) :
    (ofOnes n).encodingsOf k = encodingsOfAny := by
  simp [ofOnes, ofPattern, encodingsOf, hk, Piece.encodings]

/-- A byte that is a character of its own leads from one question mark to the next. -/
theorem mem_successors_ofOnes {k n : Nat} (hk : k < n) :
    [Place.before (k + 1)] ∈ (ofOnes n).successors [.before k] := by
  have hbehind : (ofOnes n).behind k 0 0 = [.before (k + 1)] := by
    have hsingle : (ofOnes n).range? k 0 1 = none := by
      rw [range?, encodingsOf_ofOnes hk]
      rfl
    rw [behind, hsingle, next_ofOnes hk, Option.bind_some, starts_ofOnes hk]
    rfl
  have hstep : (ofOnes n).step [.before k] 0 = [.before (k + 1)] := by
    rw [step, List.flatMap_singleton, reached, encodingsOf_ofOnes hk]
    simp [encodingsOfAny, ByteRange.has, ByteRange.continuing, hbehind, distinct]
  have hsample : 0 ∈ (ofOnes n).samples [.before k] := by
    simp [samples, ranges, encodingsOf_ofOnes hk, encodingsOfAny]
  rw [successors, List.mem_filter]
  exact ⟨List.mem_map.mpr ⟨0, hsample, hstep⟩, rfl⟩

end Automaton

/-- The index cannot look for a thousand question marks (`stateLimit`). -/
theorem isSearchable_ones {n : Nat} (h : stateLimit ≤ n) :
    isSearchable (List.replicate n .one) = false := by
  have hcomes : ∀ k ≤ n, (Automaton.ofOnes n).Comes [.before k] := by
    intro k
    induction k with
    | zero =>
      intro _
      have hstart : (Automaton.ofOnes n).start = [.before 0] := by
        rw [Automaton.start, Automaton.starts_ofOnes (Nat.zero_le n)]
        rfl
      exact hstart ▸ .start
    | succ k ih =>
      exact fun hk => .next (ih (Nat.le_of_succ_le hk)) (Automaton.mem_successors_ofOnes hk)
  have hstates : ∀ s ∈ (List.range (n + 1)).map fun k => [Place.before k],
      (Automaton.ofOnes n).Comes s := by
    intro s hs
    obtain ⟨k, hk, rfl⟩ := List.mem_map.mp hs
    exact hcomes k (Nat.le_of_lt_succ (List.mem_range.mp hk))
  -- The `n + 1` states that come up are all different, and that is more than the limit.
  have hdifferent : ((List.range (n + 1)).map fun k => [Place.before k]).Nodup :=
    List.nodup_range.map fun j k hjk => by simpa using hjk
  rw [← Bool.not_eq_true]
  intro hfew
  have hlength := Automaton.length_le_of_hasAtMost hdifferent hstates hfew
  rw [List.length_map, List.length_range] at hlength
  omega

/-! ## What was read last -/

/-- The texts of `n` letters. -/
def texts (letters : List Nat) : Nat → List (List Nat)
  | 0 => [[]]
  | n + 1 => (texts letters n).flatMap fun t => letters.map fun b => t ++ [b]

/-- Bytes that an encoding of several bytes begins with, by their place in `encodingsOfAny`. -/
def begun : List (List Nat) :=
  [[0xC2], [0xE0], [0xE0, 0xA0], [0xE1], [0xE1, 0x80], [0xED], [0xED, 0x80], [0xEE], [0xEE, 0x80],
    [0xF0], [0xF0, 0x90], [0xF1], [0xF1, 0x80], [0xF4]]

/-- The texts of seven letters `b` and `a`, and those of six with a character begun behind them. -/
def recentTexts : List (List Nat) :=
  texts [98, 97] 7 ++ begun.flatMap fun bytes => (texts [98, 97] 6).map (· ++ bytes)

/-- A number for a state: what is begun counts most, and then the set of the parts at which reading
may stand. -/
def weight (state : List Place) : Nat :=
  512 * ((state.head?.map Place.code).getD 0 % 64) +
    state.foldl (fun parts p => parts ||| 1 <<< (p.code / 64)) 0

/-- A pattern that asks for a letter and six more characters after any beginning must keep in mind
which of the last seven characters were this letter, also in the middle of a character: these are
too many states. -/
theorem isSearchable_recent : isSearchable (pattern "*a??????") = false := by
  let a := Automaton.ofPattern (pattern "*a??????")
  have hchain : (0 :: recentTexts.map fun t => weight (a.read t)).IsChain (· < ·) := by
    decide +kernel
  obtain ⟨hpositive, hincreasing⟩ := List.pairwise_cons.mp (List.isChain_iff_pairwise.mp hchain)
  have hdifferent : (recentTexts.map a.read).Nodup := by
    refine List.Nodup.of_map weight ?_
    rw [List.map_map]
    exact hincreasing.imp Nat.ne_of_lt
  have hcomes : ∀ s ∈ recentTexts.map a.read, a.Comes s := by
    intro s hs
    obtain ⟨t, ht, rfl⟩ := List.mem_map.mp hs
    have hweight := hpositive _ (List.mem_map_of_mem ht)
    refine Automaton.comes_read fun hnil => ?_
    rw [hnil] at hweight
    exact absurd hweight (by decide)
  rw [← Bool.not_eq_true]
  intro hfew
  have hlength := Automaton.length_le_of_hasAtMost hdifferent hcomes hfew
  rw [List.length_map] at hlength
  exact absurd hlength (by decide +kernel)

end DocSearch.Wildcard
