import DocSearch.Proofs.Query.ReadingRuns
import DocSearch.Proofs.Text.TextOrder

/-!
# The order of terms

The index keeps the terms of a field in the order of their bytes, and a range of terms is a range in
this order.  The order of texts is that of their characters.  The two are the same:

* a character with a greater number has the greater bytes, already where the two differ for the
  first time (`Text.codes_append_lt`), which is checked for the four lengths of an encoding;
* the bytes of a text are those of its characters one after the other (`Text.bytes_eq_flatMap`).

So ranges can be told by comparing texts (`Text.bytes_lt_bytes_iff`).
-/

namespace DocSearch.Text

open Wildcard

/-- The bytes of the text `s`, as numbers. -/
def bytes (s : String) : List Nat := s.toUTF8.toList.map UInt8.toNat

/-- The bytes of a text are those of its characters, one after the other. -/
theorem bytes_eq_flatMap (s : String) : bytes s = s.toList.flatMap codes := by
  have hdata : s.toUTF8.data.toList = s.toList.flatMap String.utf8EncodeChar := by
    rw [String.toUTF8_eq_toByteArray, ← String.ofList_toList (s := s), String.toByteArray_ofList,
      List.utf8Encode, List.toList_data_toByteArray, String.toList_ofList]
  rw [bytes, ByteArray.toList, toList_loop, hdata, List.reverse_nil, List.nil_append,
    List.drop_zero, List.map_flatMap]
  rfl

/-- The number `n` by its places in base `64`, of which the first one takes the rest. -/
theorem eq_places (n : Nat) : n =
    n / 0x40000 * 0x40000 + n / 0x1000 % 0x40 * 0x1000 + n / 0x40 % 0x40 * 0x40 + n % 0x40 := by
  omega

/-- Of two characters the smaller one has the smaller bytes, whatever follows. -/
theorem codes_append_lt {c d : Char} (h : c < d) (x y : List Nat) :
    codes c ++ x < codes d ++ y := by
  have hlt : c.toNat < d.toNat := UInt32.lt_iff_toNat_lt.mp (Char.lt_def.mp h)
  have hvalid : d.toNat < 0xD800 ∨ (0xDFFF < d.toNat ∧ d.toNat < 0x110000) := d.valid
  rw [codes_eq, codes_eq]
  generalize c.toNat = v at hlt
  generalize d.toNat = w at hlt hvalid
  have hv := eq_places v
  have hw := eq_places w
  have hv' : v / 0x40000 % 8 = v / 0x40000 := by omega
  have hw' : w / 0x40000 % 8 = w / 0x40000 := by omega
  rw [hv', hw']
  -- Characters with as many bytes differ in a place; otherwise the first byte says which one has
  -- more.
  split_ifs
  all_goals
    simp only [List.cons_append, List.cons_lt_cons_iff]
    omega

/-- Every character has a byte. -/
theorem codes_ne_nil (c : Char) : codes c ≠ [] :=
  mt List.map_eq_nil_iff.mp String.utf8EncodeChar_ne_nil

/-- The order of the bytes of some characters is that of the characters, by induction on both
lists. -/
theorem flatMap_codes_lt_iff : ∀ {s t : List Char}, s.flatMap codes < t.flatMap codes ↔ s < t
  | [], [] => by simp
  | [], d :: t => by
    obtain ⟨byte, bytes, hcodes⟩ := List.exists_cons_of_ne_nil (codes_ne_nil d)
    simp [hcodes]
  | c :: s, [] => by simp
  | c :: s, d :: t => by
    rw [List.flatMap_cons, List.flatMap_cons, List.cons_lt_cons_iff]
    rcases Nat.lt_trichotomy c.toNat d.toNat with hlt | heq | hgt
    · exact iff_of_true (codes_append_lt hlt _ _) (.inl hlt)
    · obtain rfl := Char.toNat_inj.mp heq
      rw [append_lt_append_iff, flatMap_codes_lt_iff, and_iff_right rfl,
        or_iff_right (Char.lt_irrefl c)]
    · refine iff_of_false (List.lt_asymm (codes_append_lt hgt _ _)) ?_
      rintro (hlt | ⟨rfl, _⟩)
      · exact Char.lt_asymm hlt hgt
      · exact Nat.lt_irrefl _ hgt

/-- The order of the `bytes` of texts is the order of the texts. -/
theorem bytes_lt_bytes_iff {s t : String} : bytes s < bytes t ↔ s < t := by
  rw [bytes_eq_flatMap, bytes_eq_flatMap, flatMap_codes_lt_iff, lt_iff_toList_lt]

end DocSearch.Text
