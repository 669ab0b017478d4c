import DocSearch.Data.Record
import DocSearch.Proofs.Data.Tables

/-!
# Reading data back

What was written as data is read as the same, step by step from the leaves to a record:

* alone (`Value.asWord?_int`), where `null` may stand for a missing one
  (`Value.asOption?_ofOption`),
* as the items of a list or the fields of a table (`Value.mapM_map_some`),
* as the fields of a record, since a table that lists the known names once each is a record with
  these fields (`Record.of?_table`).

A field that is read with a default does not notice that it was given (`Record.withDefault_eq`), so
it does not matter which fields a reader would let be missing.
-/

namespace DocSearch

namespace Value

/-- If each item is read as it was written, all of the list `l` are. -/
theorem mapM_map_some {α β : Type} (write : α → β) (read : β → Option α)
    (h : ∀ a, read (write a) = some a)
    (l : List α) : (l.map write).mapM read = some l := by
  induction l with
  | nil => rfl
  | cons a l ih =>
    rw [List.map_cons, List.mapM_cons, h, ih]
    rfl

/-- A list of texts is read as its texts. -/
theorem asTexts?_map_text (ss : List String) : asTexts? (.list (ss.map text)) = some ss :=
  mapM_map_some text asText? (fun _ => rfl) ss

/-- A table of texts is read as its fields. -/
theorem asTextTable?_map_text (entries : List (String × String)) :
    asTextTable? (.table (entries.map fun e => (e.1, text e.2))) = some entries :=
  mapM_map_some (fun e : String × String => (e.1, text e.2)) (fun f => f.2.asText?.map (f.1, ·))
  (fun _ => rfl) entries

/-- A word `n` is read from the integer that it is. -/
theorem asWord?_int (n : UInt64) : asWord? (.int n.toNat) = some n := by
  have hbound := n.toNat_lt
  rw [asWord?, if_pos (by omega), Int.toNat_natCast, UInt64.ofNat_toNat]

/-- A value that may be missing is read as it was written, if `null` is not written for one that is
there. -/
theorem asOption?_ofOption {α : Type} {write : α → Value} {read : Value → Option α}
    (h : ∀ a, read (write a) = some a) (hnull : ∀ a, write a ≠ null) :
    ∀ a : Option α, asOption? read (ofOption write a) = some a
  | none => rfl
  | some a => by
    rw [ofOption, asOption?, h]
    · rfl
    · exact hnull a

end Value

namespace Record

/-- The check of `Record.distinctNames` passes if no name is listed twice. -/
theorem distinctNames_of_nodup : ∀ {fields : List (String × Value)}, (fields.map (·.1)).Nodup →
    distinctNames fields = true
  | [], _ => rfl
  | f :: fs, h => by
    rw [List.map_cons, List.nodup_cons] at h
    have hother : fs.any (·.1 == f.1) = false := by
      rw [List.any_eq_false]
      intro g hg heq
      exact h.1 (eq_of_beq heq ▸ List.mem_map_of_mem hg)
    rw [distinctNames, hother, distinctNames_of_nodup h.2]
    rfl

/-- A table with every known name once is a record of its `fields`. -/
theorem of?_table {names : List String} {fields : List (String × Value)}
    (hnames : fields.map (·.1) = names)
    (hnodup : names.Nodup) : of? names (.table fields) = some ⟨true, fields⟩ := by
  subst hnames
  have hknown : (fields.filter fun f => (fields.map (·.1)).contains f.1) = fields := by
    rw [List.filter_eq_self]
    intro f hf
    exact List.contains_iff_mem.mpr (List.mem_map_of_mem hf)
  rw [of?, ofFields?, hknown]
  exact if_pos (distinctNames_of_nodup hnodup)

section Fields

variable {α : Type} {r : Record} {name : String} {v : Value} {read : Value → Option α} {a : α}
  (hfield : r.get? name = some v)

include hfield

/-- A field that was given is read, if it must be given. -/
theorem required_eq (hread : read v = some a) : r.required name read = some a := by
  rw [required, hfield, Option.bind_some, hread]

/-- A field that was given is read, whatever `default` would stand for it. -/
theorem withDefault_eq {default : α} (hread : read v = some a) :
    r.withDefault name default read = some a := by
  rw [withDefault, hfield]
  exact hread

end Fields

/-- A field that may be missing is read as it was written. -/
theorem optional_ofOption {α : Type} {r : Record} {name : String} {a : Option α} {write : α → Value}
    {read : Value → Option α} (hfield : r.get? name = some (.ofOption write a))
    (hread : ∀ a, read (write a) = some a) (hnull : ∀ a, write a ≠ .null) :
      r.optional name read = some a :=
  withDefault_eq hfield (Value.asOption?_ofOption hread hnull a)

end Record

end DocSearch
