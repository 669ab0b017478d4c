import DocSearch.Query.Automaton
import Mathlib.Data.List.Nodup
import Mathlib.Data.List.Perm.Subperm

/-!
# Patterns with few enough states

A list of states that nothing leads out of, except nowhere, has all states that are ever noted if it
has the first one.

* That all noted states lie in the list, each once, is `Automaton.NotedIn`; it is kept when the
  states behind another one are noted (`Automaton.NotedIn.note`).
* Each state is noted once and followed once, so an automaton has no more states than such a list
  (`Automaton.hasAtMost_of_closed`, by induction on the rounds that are left).

So the index can look for a pattern if the states that reading comes to lie in a list that is short
enough (`isSearchable_of_reached`).
-/

namespace DocSearch.Wildcard

namespace Automaton

/-- What is noted lies in the list `all`, each state once, and so does what is left to be
followed. -/
structure NotedIn (all : List (List Place)) (known : List (Nat × List Place))
    (pending : List (List Place)) : Prop where
  nodup : known.Nodup
  known_subset : known ⊆ all.map numbered
  pending_subset : pending ⊆ all

variable {all : List (List Place)}

theorem NotedIn.length_le {known : List (Nat × List Place)} {pending : List (List Place)}
    (h : NotedIn all known pending) : known.length ≤ all.length := by
  have hcount := (h.nodup.subperm h.known_subset).length_le
  rwa [List.length_map] at hcount

/-- States of the list may be noted.  As many become known as are left to be followed then. -/
theorem NotedIn.note :
    ∀ {ss : List (List Place)} {known : List (Nat × List Place)} {pending : List (List Place)},
    NotedIn all known pending → ss ⊆ all →
    NotedIn all (note known pending ss).1 (note known pending ss).2 ∧
      (note known pending ss).1.length + pending.length =
        (note known pending ss).2.length + known.length
  | [], known, pending, h, _ => ⟨h, Nat.add_comm _ _⟩
  | s :: ss, known, pending, h, hss => by
    obtain ⟨hs, hss⟩ := List.cons_subset.mp hss
    rw [Automaton.note]
    split
    · exact h.note hss
    · rename_i hnew
      have hknown : numbered s ∉ known := mt List.contains_iff_mem.mpr hnew
      have hnoted : NotedIn all (numbered s :: known) (s :: pending) :=
        ⟨List.nodup_cons.mpr ⟨hknown, h.nodup⟩,
          List.cons_subset.mpr ⟨List.mem_map_of_mem hs, h.known_subset⟩,
          List.cons_subset.mpr ⟨hs, h.pending_subset⟩⟩
      obtain ⟨hin, hlength⟩ := hnoted.note hss
      refine ⟨hin, ?_⟩
      rw [List.length_cons, List.length_cons] at hlength
      omega

variable {a : Automaton} (hclosed : ∀ s ∈ all, ∀ byte, a.step s byte = [] ∨ a.step s byte ∈ all)

include hclosed

theorem successors_subset {s : List Place} (hs : s ∈ all) : a.successors s ⊆ all := by
  intro t ht
  obtain ⟨ht, hne⟩ := List.mem_filter.mp ht
  obtain ⟨byte, _, rfl⟩ := List.mem_map.mp ht
  rcases hclosed s hs byte with h | h
  · rw [h] at hne
    cases hne
  · exact h

/-- There are no more states than in a list that nothing leads out of.  Every round follows a state,
of which those known have as many behind them as are not left to be followed. -/
theorem hasAtMost_of_closed {most : Nat} (hmost : all.length ≤ most) : ∀ {fuel : Nat}
    {known : List (Nat × List Place)} {pending : List (List Place)}, NotedIn all known pending →
    all.length + pending.length ≤ fuel + known.length → a.hasAtMost most fuel known pending = true
  | fuel, known, [], h, _ => by
    have hlength := h.length_le
    rw [hasAtMost]
    exact decide_eq_true (by omega)
  | 0, known, s :: pending, h, hfuel => by
    have hlength := h.length_le
    rw [List.length_cons] at hfuel
    omega
  | fuel + 1, known, s :: pending, h, hfuel => by
    obtain ⟨hs, hpending⟩ := List.cons_subset.mp h.pending_subset
    have hrest : NotedIn all known pending := ⟨h.nodup, h.known_subset, hpending⟩
    obtain ⟨hin, hcount⟩ := hrest.note (successors_subset hclosed hs)
    have hlength := hin.length_le
    rw [List.length_cons] at hfuel
    rw [hasAtMost, Bool.and_eq_true]
    refine ⟨decide_eq_true (by omega), hasAtMost_of_closed hmost hin ?_⟩
    omega

end Automaton

open Classical in
/-- The index can look for a pattern if the states that reading comes to are in a list of a
thousand.  What they have in common, `Reached`, holds of the first one and of every state that a
byte leads to from one of them. -/
theorem isSearchable_of_reached {p : List Piece} {all : List (List Place)}
    (hlength : all.length ≤ stateLimit)
    (Reached : List Place → Prop) (hstart : Reached (Automaton.ofPattern p).start)
    (hstep : ∀ s, Reached s → ∀ byte, (Automaton.ofPattern p).step s byte = [] ∨
      Reached ((Automaton.ofPattern p).step s byte))
    (hall : ∀ s, Reached s → s ∈ all) : isSearchable p = true := by
  have hmem : ∀ s, s ∈ all.filter (fun s => decide (Reached s)) ↔ Reached s := by
    intro s
    rw [List.mem_filter, decide_eq_true_eq]
    exact ⟨fun h => h.2, fun h => ⟨hall s h, h⟩⟩
  have hclosed : ∀ s ∈ all.filter (fun s => decide (Reached s)), ∀ byte,
      (Automaton.ofPattern p).step s byte = [] ∨
        (Automaton.ofPattern p).step s byte ∈ all.filter (fun s => decide (Reached s)) := by
    intro s hs byte
    rw [hmem]
    exact hstep s ((hmem s).mp hs) byte
  have hfirst := (hmem _).mpr hstart
  have hcount := Nat.le_trans (List.length_filter_le (fun s => decide (Reached s)) all) hlength
  refine Automaton.hasAtMost_of_closed hclosed hcount ?_ (Nat.add_le_add_right hcount 1)
  exact ⟨List.nodup_singleton _, List.cons_subset.mpr
    ⟨List.mem_map_of_mem hfirst, List.nil_subset _⟩,
    List.cons_subset.mpr ⟨hfirst, List.nil_subset _⟩⟩

end DocSearch.Wildcard
