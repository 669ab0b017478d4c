import DocSearch.Query.Automaton
import Mathlib.Data.List.Basic

/-!
# Patterns without wildcards

The automaton of a pattern without wildcards stands at one place at a time: it reads the encodings
of the characters byte by byte, and every byte takes it to the following place or nowhere
(`Automaton.exists_step_eq`).

* A character has one encoding, of at most four bytes (`exists_encodings_eq`), so there are at most
  four places for each character and one behind them.  They are counted by `Place.rank`.
* Every round goes on to a place of a greater rank, so there are few rounds
  (`Automaton.hasAtMost_of_rank`).

The index can therefore look for any such pattern of up to 249 characters (`isSearchable_literals`).
-/

namespace DocSearch.Wildcard

/-! ## Bytes of characters -/

theorem toList_loop (bytes : ByteArray) (i : Nat) (r : List UInt8) :
    ByteArray.toList.loop bytes i r = r.reverse ++ bytes.data.toList.drop i := by
  rw [ByteArray.toList.loop]
  split
  · rename_i hi
    have hlength : i < bytes.data.toList.length := hi
    have hget : bytes.get! i = bytes.data.toList[i] := by
      simp [ByteArray.get!, hi]
    rw [toList_loop bytes (i + 1), List.drop_eq_getElem_cons hlength, hget, List.reverse_cons,
      List.append_assoc, List.singleton_append]
  · rename_i hi
    have hlength : bytes.data.toList.length ≤ i := Nat.le_of_not_lt hi
    rw [List.drop_eq_nil_of_le hlength, List.append_nil]
termination_by bytes.size - i

/-- The bytes of the character `c`. -/
def codes (c : Char) : List Nat := (String.utf8EncodeChar c).map UInt8.toNat

/-- A character has one encoding, by its `codes`. -/
theorem encodings_literal (c : Char) :
    (Piece.literal c).encodings = [(codes c).map fun b => ⟨b, b⟩] := by
  have hbytes : (String.singleton c).toUTF8.toList = String.utf8EncodeChar c := by
    rw [ByteArray.toList, toList_loop, String.toUTF8_eq_toByteArray, String.toByteArray_singleton,
      List.utf8Encode_singleton, List.toList_data_toByteArray]
    rfl
  rw [Piece.encodings, hbytes, codes, List.map_map]
  rfl

theorem length_codes_le (c : Char) : (codes c).length ≤ 4 := by
  rw [codes, List.length_map, String.length_utf8EncodeChar]
  exact c.utf8Size_le_four

/-- A character has one encoding, of at most four bytes. -/
theorem exists_encodings_eq (c : Char) : ∃ r, (Piece.literal c).encodings = [r] ∧ r.length ≤ 4 := by
  refine ⟨_, encodings_literal c, ?_⟩
  rw [List.length_map]
  exact length_codes_le c

namespace Automaton

/-! ## The parts of the automaton -/

variable (cs : List Char)

/-- The automaton of a text that stands for itself. -/
def ofLiterals : Automaton := ofPattern (cs.map .literal)

variable {n : Nat}

theorem exists_encodingsOf_eq (hn : n < cs.length) :
    ∃ r, (ofLiterals cs).encodingsOf n = [r] ∧ r.length ≤ 4 := by
  have hencodings : (ofLiterals cs).encodingsOf n = (Piece.literal cs[n]).encodings := by
    simp [ofLiterals, ofPattern, encodingsOf, hn]
  rw [hencodings]
  exact exists_encodings_eq cs[n]

theorem encodingsOf_length : (ofLiterals cs).encodingsOf cs.length = [] := by
  simp [ofLiterals, ofPattern, encodingsOf]

theorem placesAt_literals (n : Nat) : placesAt n (cs.map .literal) = [.before n] := by
  cases cs with
  | nil => rfl
  | cons c cs => rfl

theorem starts_ofLiterals (hn : n ≤ cs.length) : (ofLiterals cs).starts[n]? = some [.before n] := by
  have hrange : n < cs.length + 1 := Nat.lt_succ_of_le hn
  simp [ofLiterals, ofPattern, ← List.map_drop, placesAt_literals, hrange]

theorem next_ofLiterals (hn : n < cs.length) : (ofLiterals cs).next[n]? = some (n + 1) := by
  simp [ofLiterals, ofPattern, hn]

end Automaton

/-! ## One step -/

/-- The number of a place in the order of reading, if every character has four bytes. -/
def Place.rank : Place → Nat
  | .before n => 4 * n
  | .inside n _ byte => 4 * n + byte

/-- The places that reading the characters `cs` can come to. -/
def Place.IsIn (cs : List Char) : Place → Prop
  | .before n => n ≤ cs.length
  | .inside n _ byte => n < cs.length ∧ byte < 4

theorem Place.IsIn.rank_le {cs : List Char} {p : Place} (hp : p.IsIn cs) :
    p.rank ≤ 4 * cs.length := by
  cases p with
  | before n =>
    have hn : n ≤ cs.length := hp
    rw [Place.rank]
    omega
  | inside n encoding byte =>
    obtain ⟨hn, hbyte⟩ := hp
    rw [Place.rank]
    omega

namespace Automaton

variable {cs : List Char} {n : Nat}

/-- Behind a `byte` there is one place: before the following byte of the character or before the
following character. -/
theorem exists_behind_eq (hn : n < cs.length) (encoding : Nat) {byte : Nat} (hbyte : byte < 4) :
    ∃ p : Place, (ofLiterals cs).behind n encoding byte = [p] ∧ p.IsIn cs ∧
    4 * n + byte < p.rank := by
  rw [behind]
  by_cases hnext : ((ofLiterals cs).range? n encoding (byte + 1)).isSome = true
  · have hfour : byte + 1 < 4 := by
      obtain ⟨r, hr, hlength⟩ := exists_encodingsOf_eq cs hn
      simp only [range?, hr] at hnext
      cases encoding with
      | zero =>
        have hbound : byte + 1 < r.length := by simpa using hnext
        omega
      | succ k => simp at hnext
    rw [if_pos hnext]
    exact ⟨_, rfl, ⟨hn, hfour⟩, Nat.lt_succ_self _⟩
  · rw [if_neg hnext, next_ofLiterals cs hn, Option.bind_some, starts_ofLiterals cs hn]
    refine ⟨.before (n + 1), rfl, hn, ?_⟩
    rw [Place.rank]
    omega

/-- From a place every byte leads to the following one, or nowhere. -/
theorem exists_reached_eq {p : Place} (hp : p.IsIn cs) : ∃ p' : Place, ∀ byte,
    (ofLiterals cs).reached byte p = [] ∨
      ((ofLiterals cs).reached byte p = [p'] ∧ p'.IsIn cs ∧ p.rank < p'.rank) := by
  cases p with
  | before n =>
    rcases Nat.lt_or_eq_of_le hp with hn | rfl
    · obtain ⟨r, hr, _⟩ := exists_encodingsOf_eq cs hn
      have hfour : 0 < 4 := by decide
      obtain ⟨p', hbehind, hp'⟩ := exists_behind_eq hn 0 hfour
      refine ⟨p', fun byte => ?_⟩
      rw [reached, hr]
      by_cases hbyte : r[0]?.any (·.has byte) = true
      · right
        simpa [hbyte, hbehind, Place.rank] using hp'
      · left
        simp [hbyte]
    -- Behind the whole text there is no encoding left, and the place named is arbitrary.
    · refine ⟨.before 0, fun byte => .inl ?_⟩
      rw [reached, encodingsOf_length]
      rfl
  | inside n encoding k =>
    obtain ⟨p', hbehind, hp'⟩ := exists_behind_eq hp.1 encoding hp.2
    refine ⟨p', fun byte => ?_⟩
    rw [reached]
    split
    · exact .inr ⟨hbehind, hp'⟩
    · exact .inl rfl

/-- Every byte takes a state of one place to that of the following place, or fails. -/
theorem exists_step_eq {p : Place} (hp : p.IsIn cs) : ∃ p' : Place, ∀ byte,
    (ofLiterals cs).step [p] byte = [] ∨
    ((ofLiterals cs).step [p] byte = [p'] ∧ p'.IsIn cs ∧ p.rank < p'.rank) := by
  have hdistinct : ∀ q : Place, distinct 0 [q] = [q] := by
    intro q
    cases q <;> simp [distinct]
  obtain ⟨p', hreached⟩ := exists_reached_eq hp
  refine ⟨p', fun byte => ?_⟩
  rw [step, List.flatMap_singleton]
  rcases hreached byte with h | ⟨h, hp'⟩
  · rw [h]
    exact .inl rfl
  · rw [h, hdistinct]
    exact .inr ⟨rfl, hp'⟩

/-! ## All steps -/

theorem note_of_known {s : List Place} {known : List (Nat × List Place)}
    (hknown : numbered s ∈ known)
    {pending : List (List Place)} : ∀ {ss : List (List Place)}, (∀ t ∈ ss, t = s) →
    note known pending ss = (known, pending)
  | [], _ => rfl
  | t :: ss, h => by
    obtain ⟨rfl, hrest⟩ := List.forall_mem_cons.mp h
    rw [note, if_pos (List.contains_iff_mem.mpr hknown), note_of_known hknown hrest]

/-- Of equal states one is noted, unless it is known. -/
theorem note_of_forall_eq {s : List Place} {known : List (Nat × List Place)}
    {pending : List (List Place)}
    {ss : List (List Place)} (h : ∀ t ∈ ss, t = s) : note known pending ss = (known, pending) ∨
      note known pending ss = (numbered s :: known, s :: pending) := by
  by_cases hknown : numbered s ∈ known
  · exact .inl (note_of_known hknown h)
  · cases ss with
    | nil => exact .inl rfl
    | cons t ss =>
      obtain ⟨rfl, hrest⟩ := List.forall_mem_cons.mp h
      right
      rw [note, if_neg (mt List.contains_iff_mem.mp hknown), note_of_known (.head _) hrest]

/-- If what is known and the places that are left are few enough, all states are.  Every round goes
on to a place of a greater rank. -/
theorem hasAtMost_of_rank {most : Nat} :
    ∀ {fuel : Nat} {known : List (Nat × List Place)} {p : Place}, p.IsIn cs →
    known.length + 4 * cs.length ≤ most + p.rank → 4 * cs.length < fuel + p.rank →
    (ofLiterals cs).hasAtMost most fuel known [[p]] = true
  | 0, known, p, hp, _, hfuel => by
    have hrank := hp.rank_le
    omega
  | fuel + 1, known, p, hp, hmost, hfuel => by
    have hrank := hp.rank_le
    have hlength : known.length ≤ most := by omega
    obtain ⟨p', hstep⟩ := exists_step_eq hp
    -- Only one state can follow, so at most one is noted in a round.
    have hsuccessors : ∀ t ∈ (ofLiterals cs).successors [p], t = [p'] ∧ p'.IsIn cs ∧
        p.rank < p'.rank := by
      intro t ht
      obtain ⟨ht, hne⟩ := List.mem_filter.mp ht
      obtain ⟨byte, _, rfl⟩ := List.mem_map.mp ht
      rcases hstep byte with h | h
      · rw [h] at hne
        cases hne
      · exact h
    have hnoted : note known [] ((ofLiterals cs).successors [p]) = (known, []) ∨
        note known [] ((ofLiterals cs).successors [p]) = (numbered [p'] :: known, [[p']]) :=
      note_of_forall_eq fun t ht => (hsuccessors t ht).1
    rw [hasAtMost]
    rcases hnoted with h | h
    · rw [h]
      cases fuel <;> simp [hasAtMost, hlength]
    -- `p'` was noted, so some byte does lead to it.
    · have hin : p'.IsIn cs ∧ p.rank < p'.rank := by
        cases hss : (ofLiterals cs).successors [p] with
        | nil =>
          rw [hss] at h
          cases h
        | cons t ss => exact (hsuccessors t (hss ▸ .head _)).2
      have hlength' : (numbered [p'] :: known).length ≤ most := by
        have hrank' := hin.1.rank_le
        rw [List.length_cons]
        omega
      rw [h, Bool.and_eq_true]
      refine ⟨decide_eq_true hlength', hasAtMost_of_rank hin.1 ?_ ?_⟩
      · rw [List.length_cons]
        omega
      · omega

end Automaton

/-- The index can look for a text of up to 249 characters that stands for itself. -/
theorem isSearchable_literals {cs : List Char} (h : cs.length ≤ 249) :
    isSearchable (cs.map .literal) = true := by
  have hstart : (Automaton.ofLiterals cs).start = [.before 0] := by
    rw [Automaton.start, Automaton.starts_ofLiterals cs (Nat.zero_le _)]
    rfl
  have hin : (Place.before 0).IsIn cs := Nat.zero_le _
  have hmost :
      [numbered [Place.before 0]].length + 4 * cs.length ≤ stateLimit + (Place.before 0).rank := by
    change 1 + 4 * cs.length ≤ 1000 + 4 * 0
    omega
  have hfuel : 4 * cs.length < stateLimit + (Place.before 0).rank := by
    change 4 * cs.length < 1000 + 4 * 0
    omega
  have hfew := Automaton.hasAtMost_of_rank hin hmost hfuel
  rw [← hstart] at hfew
  exact hfew

end DocSearch.Wildcard
