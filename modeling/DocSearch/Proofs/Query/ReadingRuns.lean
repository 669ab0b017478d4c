import DocSearch.Proofs.Data.Tables
import DocSearch.Proofs.Query.LiteralPattern
import Mathlib.Data.List.Forall2

/-!
# Reading characters and runs

A run reads the encodings of all characters but the line feed.

* At most one of these begins with a given byte (`pairwise_encodings`), and it is found by
  `leading?`.
* Every character but the line feed has its bytes in the ranges of one of them (`exists_encoding`),
  from the bytes of a character by its size (`codes_eq`).
* Where a run stands after a byte is computed by `runNext?`, and it is where the automaton goes from
  there (`Automaton.reached_run`).

So a character of the text and a run that begin at the same byte are read byte by byte together, and
both end with the last byte of the character (`runNext?_codes`).  A pattern that stands anywhere
depends on this: otherwise its run could be in the middle of one character while its text has begun
another.
-/

namespace DocSearch.Wildcard

/-! ## The encodings of a run -/

/-- The encoding, with its number, that begins with a `byte`. -/
def leading? (byte : Nat) : Option (List ByteRange × Nat) :=
  encodingsOfAny.zipIdx.find? fun r => r.1[0]?.any (·.has byte)

/-- A range has the bytes from its `first` to its `last`. -/
theorem ByteRange.has_iff {r : ByteRange} {byte : Nat} :
    r.has byte = true ↔ r.first ≤ byte ∧ byte ≤ r.last := by
  rw [has, Bool.and_eq_true, decide_eq_true_eq, decide_eq_true_eq]

/-- No `byte` begins two of the encodings. -/
theorem pairwise_encodings (byte : Nat) : encodingsOfAny.zipIdx.Pairwise fun r s =>
    r.1[0]?.any (·.has byte) = true → s.1[0]?.any (·.has byte) = false := by
  simp [encodingsOfAny, ByteRange.has, ByteRange.continuing]
  omega

/-- The bytes of a character, by its size. -/
theorem codes_eq (c : Char) : codes c =
    if c.toNat ≤ 0x7F then [c.toNat]
    else if c.toNat ≤ 0x7FF then [c.toNat / 0x40 % 0x20 + 0xC0, c.toNat % 0x40 + 0x80]
    else if c.toNat ≤ 0xFFFF then
      [c.toNat / 0x1000 % 0x10 + 0xE0, c.toNat / 0x40 % 0x40 + 0x80, c.toNat % 0x40 + 0x80]
    else [c.toNat / 0x40000 % 8 + 0xF0, c.toNat / 0x1000 % 0x40 + 0x80,
      c.toNat / 0x40 % 0x40 + 0x80,
      c.toNat % 0x40 + 0x80] := by
  have hbyte : ∀ {n}, n < 0x100 → (UInt8.ofNat n).toNat = n := fun hn => UInt8.toNat_ofNat_of_lt' hn
  have hvalid : c.val.toNat < 0xD800 ∨ (0xDFFF < c.val.toNat ∧ c.val.toNat < 0x110000) := c.valid
  have hval : c.toNat = c.val.toNat := rfl
  rw [hval, codes, String.utf8EncodeChar]
  generalize c.val.toNat = v at hvalid
  split
  · rw [List.map_singleton, hbyte (by omega)]
  · split
    · rw [List.map_cons, List.map_singleton, hbyte (by omega), hbyte (by omega)]
    · split
      · rw [List.map_cons, List.map_cons, List.map_singleton, hbyte (by omega), hbyte (by omega),
          hbyte (by omega)]
      · rw [List.map_cons, List.map_cons, List.map_cons, List.map_singleton,
          hbyte (by omega), hbyte (by omega), hbyte (by omega), hbyte (by omega)]

/-- The `bytes` lie in the ranges `rs`, one in each. -/
def AreIn (rs : List ByteRange) (bytes : List Nat) : Prop :=
  List.Forall₂ (fun range byte => range.has byte = true) rs bytes

theorem areIn_nil : AreIn [] [] := List.Forall₂.nil

theorem areIn_cons {first last byte : Nat} {rs : List ByteRange} {bytes : List Nat}
    (hfirst : first ≤ byte)
    (hlast : byte ≤ last) (h : AreIn rs bytes) : AreIn (⟨first, last⟩ :: rs) (byte :: bytes) :=
  List.Forall₂.cons (ByteRange.has_iff.mpr ⟨hfirst, hlast⟩) h

theorem areIn_continuing (n : Nat) {rs : List ByteRange} {bytes : List Nat} (h : AreIn rs bytes) :
    AreIn (.continuing :: rs) ((n % 0x40 + 0x80) :: bytes) :=
  areIn_cons (by omega) (by omega) h

/-- Every character but the line feed has one of the encodings. -/
theorem exists_encoding {c : Char} (hc : c ≠ '\n') :
    ∃ (e : Nat) (rs : List ByteRange), encodingsOfAny[e]? = some rs ∧ AreIn rs (codes c) := by
  have hline : c.toNat ≠ 10 := fun h => hc (Char.toNat_inj.mp h)
  have hvalid : c.toNat < 0xD800 ∨ (0xDFFF < c.toNat ∧ c.toNat < 0x110000) := c.valid
  rw [codes_eq]
  generalize c.toNat = v at hline hvalid
  have hlast : AreIn [.continuing] [v % 0x40 + 0x80] := areIn_continuing v areIn_nil
  have hlastTwo : AreIn [.continuing, .continuing] [v / 0x40 % 0x40 + 0x80, v % 0x40 + 0x80] :=
    areIn_continuing _ hlast
  split
  · rcases Nat.lt_or_gt_of_ne hline with hbefore | hbehind
    · exact ⟨0, _, rfl, areIn_cons (by omega) (by omega) areIn_nil⟩
    · exact ⟨1, _, rfl, areIn_cons (by omega) (by omega) areIn_nil⟩
  split
  · exact ⟨2, _, rfl, areIn_cons (by omega) (by omega) hlast⟩
  split
  -- Three bytes, in four encodings: overlong forms are left out in front, surrogates in between.
  · have hcases : v < 0x1000 ∨ (0x1000 ≤ v ∧ v < 0xD000) ∨ (0xD000 ≤ v ∧ v < 0xD800) ∨
      0xE000 ≤ v := by omega
    rcases hcases with hv | hv | hv | hv
    · exact ⟨3, _, rfl, areIn_cons (by omega) (by omega) (areIn_cons (by omega) (by omega) hlast)⟩
    · exact ⟨4, _, rfl, areIn_cons (by omega) (by omega) hlastTwo⟩
    · exact ⟨5, _, rfl, areIn_cons (by omega) (by omega) (areIn_cons (by omega) (by omega) hlast)⟩
    · exact ⟨6, _, rfl, areIn_cons (by omega) (by omega) hlastTwo⟩
  -- Four bytes, in three: overlong forms are left out in front, what is no character at the end.
  · have hcases : v < 0x40000 ∨ (0x40000 ≤ v ∧ v < 0x100000) ∨ 0x100000 ≤ v := by omega
    rcases hcases with hv | hv | hv
    · exact ⟨7, _, rfl, areIn_cons (by omega) (by omega)
        (areIn_cons (by omega) (by omega) hlastTwo)⟩
    · exact ⟨8, _, rfl, areIn_cons (by omega) (by omega) (areIn_continuing _ hlastTwo)⟩
    · exact ⟨9, _, rfl, areIn_cons (by omega) (by omega)
        (areIn_cons (by omega) (by omega) hlastTwo)⟩

/-- The number of the encoding that some bytes begin with; `0` without any byte. -/
def leadOf : List Nat → Nat
  | [] => 0
  | byte :: _ => ((leading? byte).map (·.2)).getD 0

/-- If only one thing of a list is looked for, it alone counts. -/
theorem flatMap_ite_eq_find? {α β : Type} {p : α → Bool} {f : α → List β} : ∀ {l : List α},
    l.Pairwise (fun y z => p y = true → p z = false) →
    l.flatMap (fun x => if p x = true then f x else []) = ((l.find? p).map f).getD []
  | [], _ => rfl
  | y :: l, hl => by
    obtain ⟨hy, hl⟩ := List.pairwise_cons.mp hl
    rw [List.flatMap_cons]
    by_cases hpy : p y = true
    · have hrest : l.flatMap (fun x => if p x = true then f x else []) = [] := by
        refine List.flatMap_eq_nil_iff.mpr fun x hx => ?_
        rw [hy x hx hpy, if_neg Bool.false_ne_true]
      rw [if_pos hpy, hrest, List.append_nil, List.find?_cons_of_pos hpy]
      rfl
    · rw [if_neg hpy, List.nil_append, List.find?_cons_of_neg hpy, flatMap_ite_eq_find? hl]

/-! ## Reading on -/

/-- Between two characters if the number of `bytes` is that of the `encoding`, otherwise behind so
many bytes of it. -/
def settled (encoding bytes : Nat) : Nat × Nat :=
  if ((encodingsOfAny[encoding]?.bind (·[bytes]?)).isSome) then (encoding, bytes) else (0, 0)

/-- Where a run stands after a byte: behind how many bytes of which encoding. -/
def runNext? : Nat × Nat → Nat → Option (Nat × Nat)
  | (_, 0), byte => (leading? byte).map fun r => settled r.2 1
  | (encoding, bytes + 1), byte =>
    if (encodingsOfAny[encoding]?.bind (·[bytes + 1]?)).any (·.has byte) then
      some (settled encoding (bytes + 2))
    else none

/-- The place in a part of a pattern behind some bytes of an encoding. -/
def placeAt (piece : Nat) : Nat × Nat → Place
  | (_, 0) => .before piece
  | (encoding, bytes + 1) => .inside piece encoding (bytes + 1)

/-- A character is read byte by byte with the run in front of it, and ends with it. -/
theorem runNext?_codes {c : Char} (hc : c ≠ '\n') {x : Nat × Nat}
    (hx : x.2 = 0 ∨ x.1 = leadOf (codes c)) {byte : Nat}
    (hbyte : (codes c)[x.2]? = some byte) : runNext? x byte =
      some (if x.2 + 1 < (codes c).length then (leadOf (codes c), x.2 + 1) else (0, 0)) := by
  obtain ⟨e, rs, hrs, hforall⟩ := exists_encoding hc
  have hlength : rs.length = (codes c).length := hforall.length_eq
  have hr : (rs, e) ∈ encodingsOfAny.zipIdx := List.mk_mem_zipIdx_iff_getElem?.mpr hrs
  have hhas : ∀ {j b : Nat}, (codes c)[j]? = some b → (rs[j]?).any (·.has b) = true := by
    intro j b hb
    obtain ⟨hj, rfl⟩ := List.getElem?_eq_some_iff.mp hb
    have hj' : j < rs.length := hlength ▸ hj
    rw [List.getElem?_eq_getElem hj', Option.any_some]
    exact hforall.get hj' hj
  have hsettled : ∀ j, settled e j = if j < (codes c).length then (e, j) else (0, 0) := by
    intro j
    rw [settled, hrs, Option.bind_some, ← hlength]
    by_cases hj : j < rs.length
    · simp [hj]
    · simp [hj]
  have hfirst : ∀ {b : Nat}, (codes c)[0]? = some b → leading? b = some (rs, e) := by
    intro b hb
    exact find?_eq_some_of_pairwise (pairwise_encodings b) hr (hhas hb)
  -- The encoding that the first byte picks is the one of `c`, as no two begin alike.
  have hlead : leadOf (codes c) = e := by
    cases hcodes : codes c with
    | nil =>
      rw [hcodes] at hbyte
      cases hbyte
    | cons b bs =>
      rw [leadOf, hfirst (by rw [hcodes]; rfl)]
      rfl
  obtain ⟨encoding, bytes⟩ := x
  rw [hlead]
  cases bytes with
  | zero => rw [runNext?, hfirst hbyte, Option.map_some, hsettled]
  | succ j =>
    obtain rfl : encoding = e := hlead ▸ hx.resolve_left (Nat.succ_ne_zero j)
    rw [runNext?, hrs, Option.bind_some, if_pos (hhas hbyte), hsettled]

namespace Automaton

variable {a : Automaton} {i : Nat} {after : List Place}
  (hafter : ((a.next[i]?).bind (a.starts[·]?)).getD [] = after)

include hafter

/-- From a place in a run a `byte` leads on in it, or behind a character. -/
theorem reached_run (hencodings : a.encodingsOf i = encodingsOfAny) (x : Nat × Nat) (byte : Nat) :
    a.reached byte (placeAt i x) =
      ((runNext? x byte).map fun y => if y.2 = 0 then after else [placeAt i y]).getD [] := by
  have hbehind : ∀ e j, a.behind i e j =
      if (settled e (j + 1)).2 = 0 then after else [placeAt i (settled e (j + 1))] := by
    intro e j
    rw [behind, hafter, settled]
    rw [range?, hencodings]
    change (if (encodingsOfAny[e]?.bind (·[j + 1]?)).isSome = true then _ else _) = _
    split
    · rfl
    · rfl
  obtain ⟨encoding, bytes⟩ := x
  cases bytes with
  | zero =>
    -- Of all encodings of a run, the first byte fits one at most.
    rw [placeAt, reached, hencodings, flatMap_ite_eq_find? (pairwise_encodings byte), runNext?]
    change ((leading? byte).map _).getD [] = _
    cases leading? byte with
    | none => rfl
    | some r => exact hbehind r.2 0
  | succ j =>
    rw [placeAt, reached, runNext?, range?, hencodings]
    change (if (encodingsOfAny[encoding]?.bind (·[j + 1]?)).any (·.has byte) =
      true then _ else _) = _
    split
    · exact hbehind encoding (j + 1)
    · rfl

/-- From a place in a character its next `byte` leads on in it, or behind it. -/
theorem reached_literal {c : Char} (hencodings : a.encodingsOf i = (Piece.literal c).encodings)
    (j byte : Nat) :
    a.reached byte (placeAt i (0, j)) = if (codes c)[j]? = some byte then
      (if j + 1 < (codes c).length then [placeAt i (0, j + 1)] else after) else [] := by
  rw [encodings_literal] at hencodings
  have hrange : ∀ k : Nat, a.range? i 0 k = ((codes c)[k]?).map fun b => ⟨b, b⟩ := by
    intro k
    rw [range?, hencodings]
    change ((codes c).map _)[k]? = _
    rw [List.getElem?_map]
  have hhas : ∀ k : Nat,
      (((codes c)[k]?).map fun b => (⟨b, b⟩ : ByteRange)).any (·.has byte) = true ↔
        (codes c)[k]? = some byte := by
    intro k
    cases (codes c)[k]? with
    | none => simp
    | some b =>
      simp [ByteRange.has]
      omega
  have hbehind :
      ∀ k, a.behind i 0 k = if k + 1 < (codes c).length then [placeAt i (0, k + 1)] else after := by
    intro k
    rw [behind, hafter, hrange]
    by_cases hk : k + 1 < (codes c).length
    · simp [hk, placeAt]
    · simp [hk]
  cases j with
  | zero =>
    rw [placeAt, reached, hencodings]
    simp [hbehind, ← hhas]
  | succ j =>
    rw [placeAt, reached, hrange, hbehind]
    simp only [hhas]

end Automaton

end DocSearch.Wildcard
