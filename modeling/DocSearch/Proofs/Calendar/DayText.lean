import DocSearch.Calendar.DayReader
import DocSearch.Proofs.Text.Runs

/-!
# Texts that state a day

Every reader of a part of a date takes digits, blanks and marks from the front of a text and leaves
the commas of the text to what follows.  `Calendar.LeavesCommas` says this of a reader, and
`Calendar.LeavesCommas.of_bind` passes it on from one part to the next, so that a reader that is put
together from parts needs one step for each.

The readers of a day go to the end of the text, where there is nothing left for a comma to be in.
So a text that states a day has no comma (`Day.comma_not_mem_of_read?`), and two such texts with a
comma between them can be told apart, as `Description.dayPair?` has to.
-/

namespace DocSearch

namespace Text

/-- Dropping characters that are no comma leaves the commas. -/
theorem comma_mem_dropWhile {p : Char → Bool} (hp : p ',' = false) {cs : List Char} (h : ',' ∈ cs) :
    ',' ∈ cs.dropWhile p := by
  rw [← List.takeWhile_append_dropWhile (p := p) (l := cs)] at h
  rcases List.mem_append.mp h with h | h
  · have htaken : p ',' = true := List.mem_takeWhile_imp h
    rw [hp] at htaken
    cases htaken
  · exact h

/-- Blanks are no commas. -/
theorem comma_mem_trimStart {cs : List Char} (h : ',' ∈ cs) : ',' ∈ trimStart isBlank cs :=
  comma_mem_dropWhile (by decide) h

/-- Digits are no commas. -/
theorem comma_mem_takeDigits : ∀ {most : Nat} {cs : List Char},
    ',' ∈ cs → ',' ∈ (takeDigits most cs).2
  | 0, _, h => h
  | most + 1, c :: cs, h => by
    rw [takeDigits]
    split
    · rename_i hdigit
      rcases List.mem_cons.mp h with rfl | h
      · exact absurd hdigit (by decide)
      · exact comma_mem_takeDigits h
    · exact h

/-- A mark other than the comma leaves the commas. -/
theorem comma_mem_of_after? {c : Char} (hc : c ≠ ',') {cs rest : List Char}
    (h : after? c cs = some rest)
    (hcomma : ',' ∈ cs) : ',' ∈ rest := by
  cases cs with
  | nil => cases h
  | cons d cs =>
    rw [after?, Option.ite_none_right_eq_some] at h
    obtain ⟨rfl, heq⟩ := h
    cases heq
    exact (List.mem_cons.mp hcomma).resolve_left hc.symm

/-- A mark that is read in front of something else, `next`, leaves the commas to it. -/
theorem comma_mem_of_after?_bind {c : Char} (hc : c ≠ ',') {cs : List Char} {β : Type}
    {next : List Char → Option β}
    {r : β} (h : (after? c cs >>= next) = some r) (hcomma : ',' ∈ cs) : ∃ rest, next rest = some r ∧
    ',' ∈ rest := by
  obtain ⟨rest, hread, hnext⟩ := Option.bind_eq_some_iff.mp h
  exact ⟨rest, hnext, comma_mem_of_after? hc hread hcomma⟩

end Text

namespace Calendar

open Text

/-- Every comma of a text is in what follows the part that `reader` reads. -/
def LeavesCommas {α : Type} (reader : List Char → Option (α × List Char)) : Prop :=
  ∀ ⦃cs : List Char⦄ ⦃x : α⦄ ⦃rest : List Char⦄, reader cs = some (x, rest) → ',' ∈ cs → ',' ∈ rest

/-- A part that is read in front of something else, `next`, leaves the commas to it. -/
theorem LeavesCommas.of_bind {α β : Type} {reader : List Char → Option (α × List Char)}
    (hreader : LeavesCommas reader)
    {cs : List Char} {next : α × List Char → Option β} {r : β} (h : (reader cs >>= next) = some r)
    (hcomma : ',' ∈ cs) : ∃ x rest, next (x, rest) = some r ∧ ',' ∈ rest := by
  obtain ⟨⟨x, rest⟩, hread, hnext⟩ := Option.bind_eq_some_iff.mp h
  exact ⟨x, rest, hnext, hreader hread hcomma⟩

theorem leavesCommas_number? (least most : Nat) : LeavesCommas (number? least most) := by
  intro cs n rest h hcomma
  simp only [number?, Option.ite_none_left_eq_some, Option.some.injEq, Prod.mk.injEq] at h
  obtain ⟨_, _, rfl⟩ := h
  exact comma_mem_takeDigits hcomma

theorem leavesCommas_pair? : LeavesCommas pair? :=
  fun _ _ _ h hcomma => leavesCommas_number? 1 2 h (comma_mem_trimStart hcomma)

/-- A year leaves the commas, however it is signed. -/
theorem leavesCommas_year? : LeavesCommas year? := by
  intro cs year rest h hcomma
  have hcomma := comma_mem_trimStart hcomma
  have hdigits : ∀ {least most : Nat} {cs : List Char} {g : Nat × List Char → Int × List Char},
      (∀ r, (g r).2 = r.2) →
        ',' ∈ cs → (number? least most cs).map g = some (year, rest) → ',' ∈ rest := by
    intro least most cs g hg hcs hread
    obtain ⟨r, hnumber, heq⟩ := Option.map_eq_some_iff.mp hread
    have hrest : r.2 = rest := (hg r).symm.trans (congrArg Prod.snd heq)
    exact hrest ▸ leavesCommas_number? _ _ hnumber hcs
  rw [year?] at h
  split at h
  · rename_i heq
    rw [heq] at hcomma
    exact hdigits (fun _ => rfl) ((List.mem_cons.mp hcomma).resolve_left (by decide)) h
  · rename_i heq
    rw [heq] at hcomma
    exact hdigits (fun _ => rfl) ((List.mem_cons.mp hcomma).resolve_left (by decide)) h
  · exact hdigits (fun _ => rfl) hcomma h

theorem leavesCommas_fraction? : LeavesCommas fraction? := by
  intro cs n rest h hcomma
  unfold fraction? at h
  split at h
  · simp only [Option.ite_none_left_eq_some, Option.some.injEq, Prod.mk.injEq] at h
    obtain ⟨_, _, rfl⟩ := h
    exact comma_mem_takeDigits ((List.mem_cons.mp hcomma).resolve_left (by decide))
  · cases h
    exact hcomma

theorem leavesCommas_sign? : LeavesCommas sign? := by
  intro cs n rest h hcomma
  unfold sign? at h
  split at h
  · cases h
    exact (List.mem_cons.mp hcomma).resolve_left (by decide)
  · cases h
    exact (List.mem_cons.mp hcomma).resolve_left (by decide)
  · cases h
    exact (List.mem_cons.mp hcomma).resolve_left (by decide)
  · cases h

/-- An offset leaves the commas; its hours and minutes have a colon between them. -/
theorem leavesCommas_offset? : LeavesCommas (offset? (after? ':')) := by
  intro cs n rest h hcomma
  unfold offset? at h
  split at h
  · cases h
    exact (List.mem_cons.mp hcomma).resolve_left (by decide)
  · cases h
    exact (List.mem_cons.mp hcomma).resolve_left (by decide)
  · obtain ⟨_, _, h, hcomma⟩ := leavesCommas_sign?.of_bind h hcomma
    obtain ⟨_, _, h, hcomma⟩ := (leavesCommas_number? 2 2).of_bind h hcomma
    obtain ⟨_, h, hcomma⟩ := comma_mem_of_after?_bind (by decide) h hcomma
    obtain ⟨_, _, h, hcomma⟩ := (leavesCommas_number? 2 2).of_bind h hcomma
    simp only [Option.ite_none_left_eq_some, Option.some.injEq, Prod.mk.injEq] at h
    obtain ⟨_, _, rfl⟩ := h
    exact hcomma

end Calendar

namespace Day

open Calendar Text

variable {cs : List Char} {day : Day}

/-- The form with dashes has no comma: `Day.readDashed?` reads to the end. -/
theorem comma_not_mem_of_readDashed? (h : readDashed? cs = some day) : ',' ∉ cs := by
  intro hcomma
  obtain ⟨_, _, h, hcomma⟩ := leavesCommas_year?.of_bind h hcomma
  obtain ⟨_, h, hcomma⟩ := comma_mem_of_after?_bind (by decide) h hcomma
  obtain ⟨_, _, h, hcomma⟩ := leavesCommas_pair?.of_bind h hcomma
  obtain ⟨_, h, hcomma⟩ := comma_mem_of_after?_bind (by decide) h hcomma
  obtain ⟨_, _, h, hcomma⟩ := leavesCommas_pair?.of_bind h hcomma
  obtain ⟨hend, _⟩ := Option.ite_none_right_eq_some.mp h
  exact List.ne_nil_of_mem hcomma (List.isEmpty_iff.mp hend)

/-- The form of one number has no comma. -/
theorem comma_not_mem_of_readCompact? (h : readCompact? cs = some day) : ',' ∉ cs := by
  intro hcomma
  obtain ⟨_, _, h, hcomma⟩ := leavesCommas_year?.of_bind h hcomma
  obtain ⟨_, _, h, hcomma⟩ := leavesCommas_pair?.of_bind h hcomma
  obtain ⟨_, _, h, hcomma⟩ := leavesCommas_pair?.of_bind h hcomma
  obtain ⟨hend, _⟩ := Option.ite_none_right_eq_some.mp h
  exact List.ne_nil_of_mem hcomma (List.isEmpty_iff.mp hend)

/-- A timestamp has no comma; its fraction stands behind a point. -/
theorem comma_not_mem_of_readTimestamp? (h : readTimestamp? cs = some day) : ',' ∉ cs := by
  intro hcomma
  obtain ⟨time, h, _⟩ := Option.map_eq_some_iff.mp h
  obtain ⟨_, _, h, hcomma⟩ := (leavesCommas_number? 4 4).of_bind h hcomma
  obtain ⟨_, h, hcomma⟩ := comma_mem_of_after?_bind (by decide) h hcomma
  obtain ⟨_, _, h, hcomma⟩ := (leavesCommas_number? 2 2).of_bind h hcomma
  obtain ⟨_, h, hcomma⟩ := comma_mem_of_after?_bind (by decide) h hcomma
  obtain ⟨_, cs, h, hcomma⟩ := (leavesCommas_number? 2 2).of_bind h hcomma
  -- Between date and time stands one of three characters.
  obtain _ | ⟨c, cs⟩ := cs
  · cases h
  obtain ⟨hmark, h⟩ := Option.ite_none_right_eq_some.mp h
  rw [Option.bind_eq_bind, Option.bind_some] at h
  have hcomma : ',' ∈ cs := by
    refine (List.mem_cons.mp hcomma).resolve_left ?_
    rintro rfl
    exact absurd hmark (by decide)
  obtain ⟨_, _, h, hcomma⟩ := (leavesCommas_number? 2 2).of_bind h hcomma
  obtain ⟨_, h, hcomma⟩ := comma_mem_of_after?_bind (by decide) h hcomma
  obtain ⟨_, _, h, hcomma⟩ := (leavesCommas_number? 2 2).of_bind h hcomma
  obtain ⟨_, h, hcomma⟩ := comma_mem_of_after?_bind (by decide) h hcomma
  obtain ⟨_, _, h, hcomma⟩ := (leavesCommas_number? 2 2).of_bind h hcomma
  obtain ⟨_, _, h, hcomma⟩ := leavesCommas_fraction?.of_bind h hcomma
  obtain ⟨_, _, h, hcomma⟩ := leavesCommas_offset?.of_bind h hcomma
  obtain ⟨hend, _⟩ := Option.ite_none_right_eq_some.mp h
  exact List.ne_nil_of_mem hcomma (List.isEmpty_iff.mp hend)

/-- A text `s` that states a day, in any of the three forms, has no comma. -/
theorem comma_not_mem_of_read? {s : String} (h : read? s = some day) : ',' ∉ s.toList := by
  obtain ⟨a, b, heq, ha, hb⟩ := exists_append_trim isBlank s.toList
  have hblank : ∀ {x : List Char}, (∀ c ∈ x, isBlank c = true) → ',' ∉ x :=
    fun hx hmem => absurd (hx ',' hmem) (by decide)
  have htrim : ',' ∉ trim isBlank s.toList := by
    rw [read?, Option.or_eq_some_iff, Option.or_eq_some_iff] at h
    rcases h with h | ⟨_, h | ⟨_, h⟩⟩
    · exact comma_not_mem_of_readDashed? h
    · exact comma_not_mem_of_readCompact? h
    · exact comma_not_mem_of_readTimestamp? h
  rw [heq, List.mem_append, List.mem_append]
  rintro ((hmem | hmem) | hmem)
  · exact hblank ha hmem
  · exact htrim hmem
  · exact hblank hb hmem

end Day

end DocSearch
