import DocSearch.Json.Printer
import DocSearch.Json.Reader
import DocSearch.Proofs.Data.ReadBack
import DocSearch.Proofs.Text.Numbers

/-!
# Reading what was written

A value that JSON can express (`Json.isPlain`) is read as it was written (`Json.read?_write`).

The reader goes on where the writer stopped, so each lemma has the rest of the text behind it:

* a text in quotes, character by character (`Json.textChars?_escaped`, `Json.textChars?_quoted`);
* an integer (`Json.numberValue?_intChars`), behind which there must be something that ends it
  (`Json.EndsValue`), or the reader would go on;
* the parts of lists and tables, one lemma for each way in which the reader goes on
  (`Json.value?_list_cons`, `Json.items?_cons`, `Json.value?_table_cons`, `Json.fields?_cons`).

From these every value is read (`Json.value?_chars`), by induction on the value together with the
items of lists and the fields of tables.  The characters written bound the fuel that reading takes,
so the fuel of `Json.readChars?` is enough.
-/

namespace DocSearch.Json

/-! ## Texts in quotes -/

/-- A hexadecimal digit is read as its number. -/
theorem hexValue?_hexDigit : ∀ n < 16, hexValue? (hexDigit n) = some n := by decide

/-- The character `c` stands inside quotes as a letter behind a backslash, as its number, or as it
is. -/
theorem escaped_cases (c : Char) :
    (∃ e, e ≠ 'u' ∧ letterEscape? e = some c ∧ escaped c = ['\\', e]) ∨
    (c.toNat < 32 ∧
      escaped c = ['\\', 'u', '0', '0', hexDigit (c.toNat / 16), hexDigit (c.toNat % 16)]) ∨
    (32 ≤ c.toNat ∧ c ≠ '\x22' ∧ c ≠ '\\' ∧ escaped c = [c]) := by
  by_cases hletter : c = '\x22' ∨ c = '\\' ∨ c = '\n' ∨ c = '\r' ∨ c = '\t' ∨
    c = '\x08' ∨ c = '\x0c'
  · left
    rcases hletter with rfl | rfl | rfl | rfl | rfl | rfl | rfl
    · exact ⟨'\x22', by decide⟩
    · exact ⟨'\\', by decide⟩
    · exact ⟨'n', by decide⟩
    · exact ⟨'r', by decide⟩
    · exact ⟨'t', by decide⟩
    · exact ⟨'b', by decide⟩
    · exact ⟨'f', by decide⟩
  -- Without a letter, characters below 32 are written by their number and the others stand alone.
  · right
    simp only [not_or] at hletter
    obtain ⟨hquote, hslash, hline, hreturn, htab, hback, hfeed⟩ := hletter
    by_cases hcontrol : c.toNat < 32
    · left
      simp [escaped, hquote, hslash, hline, hreturn, htab, hback, hfeed, hcontrol]
    · right
      simp [escaped, hquote, hslash, hline, hreturn, htab, hback, hfeed, hcontrol]
      omega

/-- A letter behind a backslash is read as what it stands for. -/
theorem textChars?_letter {e c : Char} (he : e ≠ 'u') (hletter : letterEscape? e = some c)
    (cs : List Char) : textChars? ('\\' :: e :: cs) = (textChars? cs).map (withChar (some c)) := by
  rw [textChars?]
  · rw [hletter]
    rfl
  · rintro a b c d cs rfl
    exact absurd rfl he

/-- A control character is read from its number. -/
theorem textChars?_number {c : Char} (h : c.toNat < 32) (cs : List Char) :
    textChars? ('\\' :: 'u' :: '0' :: '0' :: hexDigit (c.toNat / 16) ::
      hexDigit (c.toNat % 16) :: cs) =
        (textChars? cs).map (withChar (some c)) := by
  have hhigh := hexValue?_hexDigit (c.toNat / 16) (by omega)
  have hlow := hexValue?_hexDigit (c.toNat % 16) (by omega)
  have hzero : hexValue? '0' = some 0 := by decide
  have hunit :
      hexValue4? '0' '0' (hexDigit (c.toNat / 16)) (hexDigit (c.toNat % 16)) = some c.toNat := by
    simp only [hexValue4?, hhigh, hlow, hzero, Option.pure_def, Option.bind_eq_bind,
      Option.bind_some, Option.some.injEq]
    omega
  -- A control character is no half of a pair.
  have hnotHigh : isHighHalf c.toNat = false := by simp [isHighHalf]; omega
  have hnotLow : isLowHalf c.toNat = false := by simp [isLowHalf]; omega
  rw [textChars?, hunit]
  simp [hnotHigh, hnotLow, Char.ofNat_toNat]

/-- All other characters are read as they are. -/
theorem textChars?_plain {c : Char} (hcode : 32 ≤ c.toNat) (hquote : c ≠ '\x22') (hslash : c ≠ '\\')
    (cs : List Char) : textChars? (c :: cs) = (textChars? cs).map (withChar (some c)) := by
  rw [textChars?]
  · rw [if_neg]
    rintro (h | h)
    · omega
    · exact hslash h
  · rintro rfl
    exact hquote rfl
  · rintro _ _ _ _ _ rfl
    exact fun _ => hslash rfl
  · rintro _ _ rfl
    exact fun _ => hslash rfl

/-- What was written of the character `c` is read as that character. -/
theorem textChars?_escaped (c : Char) (cs : List Char) :
    textChars? (escaped c ++ cs) = (textChars? cs).map (withChar (some c)) := by
  rcases escaped_cases c with ⟨e, he, hletter, heq⟩ | ⟨hcontrol, heq⟩ | ⟨hcode, hquote, hslash, heq⟩
  · rw [heq]
    exact textChars?_letter he hletter cs
  · rw [heq]
    exact textChars?_number hcontrol cs
  · rw [heq]
    exact textChars?_plain hcode hquote hslash cs

/-- What was written of a text is read as that text, up to its closing quote. -/
theorem textChars?_quoted (cs rest : List Char) :
    textChars? (cs.flatMap escaped ++ '\x22' :: rest) = some (some cs, rest) := by
  induction cs with
  | nil => rw [List.flatMap_nil, List.nil_append, textChars?]
  | cons c cs ih =>
    rw [List.flatMap_cons, List.append_assoc, textChars?_escaped, ih]
    rfl

/-! ## Values without parts -/

/-- The text `cs` begins with what may follow a value inside a list or table, or there is none. -/
def EndsValue (cs : List Char) : Prop := ∀ c ∈ cs.head?, c = ',' ∨ c = ']' ∨ c = '\x7d'

theorem endsValue_nil : EndsValue [] := fun _ hc => nomatch hc

/-- What ends a value is no digit. -/
theorem EndsValue.noDigitFirst {cs : List Char} (h : EndsValue cs) : Text.NoDigitFirst cs := by
  intro c hc
  rcases h c hc with rfl | rfl | rfl <;> rfl

/-- A word is read with whatever stands behind it. -/
theorem word?_append (word : String) (v : Value) (rest : List Char) :
    word? word v (word.toList ++ rest) = some (v, rest) := by
  have hprefix : word.toList.isPrefixOf (word.toList ++ rest) = true :=
    List.isPrefixOf_iff_prefix.mpr (List.prefix_append _ _)
  rw [word?, if_pos hprefix, ← String.length_toList, List.drop_left]

/-- A text in quotes begins with one, for the reader to see. -/
theorem quoted_append (s : String) (rest : List Char) :
    quoted s ++ rest = '\x22' :: (s.toList.flatMap escaped ++ '\x22' :: rest) := by
  simp [quoted]

/-- A text in quotes is read as a value. -/
theorem value?_quoted (fuel : Nat) (s : String) (rest : List Char) :
    value? (fuel + 1) (quoted s ++ rest) = some (.text s, rest) := by
  have hskip :
      skip (quoted s ++ rest) = '\x22' :: (s.toList.flatMap escaped ++ '\x22' :: rest) := by
    rw [quoted_append]
    rfl
  rw [value?, hskip]
  simp only [textChars?_quoted, Option.map_some, textValue, String.ofList_toList]

/-- The digits of a number are read as its whole part. -/
theorem wholePart?_decimal (n : Nat) {rest : List Char} (h : EndsValue rest) :
    wholePart? (Text.decimal n ++ rest) = some (Text.decimal n, rest) := by
  by_cases hn : n = 0
  · subst hn
    rfl
  · obtain ⟨c, cs, hdecimal, hzero, _⟩ := Text.exists_decimal_eq_cons hn
    have hdigits : ∀ d ∈ Text.decimal n, d.isDigit = true := fun _ => Text.isDigit_of_mem_padded
    have htaken : Text.takeDigits (Text.decimal n ++ rest).length (Text.decimal n ++ rest) =
        (Text.decimal n, rest) :=
      Text.takeDigits_append hdigits (by simp) (.inr h.noDigitFirst)
    rw [hdecimal, List.cons_append] at htaken ⊢
    rw [wholePart?]
    · rw [htaken]
      rfl
    · rintro _ hcs
      exact hzero (List.cons.inj hcs).1

/-- Where a value ends there is no fraction. -/
theorem fractionPart?_of_endsValue {cs : List Char} (h : EndsValue cs) :
    fractionPart? cs = some ([], cs) := by
  rw [fractionPart?]
  rintro ds rfl
  exact absurd (h '.' rfl) (by decide)

/-- Where a value ends there is no exponent. -/
theorem exponentPart?_of_endsValue : ∀ {cs : List Char},
    EndsValue cs → exponentPart? cs = some (none, cs)
  | [], _ => rfl
  | c :: cs, h => by
    refine if_neg (?_ : ¬ (c = 'e' ∨ c = 'E'))
    rintro (rfl | rfl)
    · exact absurd (h 'e' rfl) (by decide)
    · exact absurd (h 'E' rfl) (by decide)

/-- An integer begins with a digit or a minus. -/
theorem exists_intChars_eq_cons (n : Int) : ∃ c cs, intChars n = c :: cs ∧ isSpace c = false ∧
    ∀ d, d.isDigit = false → d ≠ '-' → c ≠ d := by
  have hfirst : ∃ c cs, intChars n = c :: cs ∧ (c = '-' ∨ c.isDigit = true) := by
    rw [intChars]
    split
    · exact ⟨'-', _, rfl, .inl rfl⟩
    · by_cases hzero : n.natAbs = 0
      · rw [hzero]
        exact ⟨'0', [], rfl, .inr rfl⟩
      · obtain ⟨c, cs, hdecimal, _, hdigit⟩ := Text.exists_decimal_eq_cons hzero
        exact ⟨c, cs, hdecimal, .inr hdigit⟩
  obtain ⟨c, cs, hchars, hfirst⟩ := hfirst
  have hother : ∀ d, d.isDigit = false → d ≠ '-' → c ≠ d := by
    rintro d hdigit hminus rfl
    rcases hfirst with hfirst | hfirst
    · exact hminus hfirst
    · rw [hdigit] at hfirst
      cases hfirst
  refine ⟨c, cs, hchars, ?_, hother⟩
  simp [isSpace, hother ' ' rfl (by decide), hother '\n' rfl (by decide),
    hother '\r' rfl (by decide), hother '\t' rfl (by decide)]

/-- A number without a sign does not begin with a minus. -/
theorem head?_decimal_append (n : Nat) (rest : List Char) :
    ((Text.decimal n ++ rest).head? == some '-') = false := by
  by_cases hn : n = 0
  · subst hn
    rfl
  · obtain ⟨c, cs, hdecimal, _, hdigit⟩ := Text.exists_decimal_eq_cons hn
    rw [hdecimal, List.cons_append, List.head?_cons, beq_eq_false_iff_ne]
    rintro heq
    cases heq
    exact absurd hdigit (by decide)

/-- An integer is read as the integer that it was written of. -/
theorem numberValue?_intChars (n : Int) {rest : List Char} (h : EndsValue rest) :
    numberValue? (intChars n ++ rest) = some (.int n, rest) := by
  have hfraction := fractionPart?_of_endsValue h
  have hexponent := exponentPart?_of_endsValue h
  have hwhole := wholePart?_decimal n.natAbs h
  have hvalue := Text.valueOf_decimal n.natAbs
  by_cases hn : n < 0
  · have hsign : (('-' :: (Text.decimal n.natAbs ++ rest)).head? == some '-') = true := rfl
    have hzero : (n.natAbs == 0) = false := by
      rw [beq_eq_false_iff_ne]
      omega
    have hneg : -(n.natAbs : Int) = n := by omega
    rw [intChars, if_pos hn, List.cons_append, numberValue?, hsign]
    simp only [if_true, List.tail_cons, hwhole, hfraction, hexponent, hvalue, hzero, hneg,
      Option.bind_eq_bind, Option.bind_some]
    rfl
  · have hpos : (n.natAbs : Int) = n := by omega
    rw [intChars, if_neg hn, numberValue?, head?_decimal_append]
    simp only [Bool.false_eq_true, if_false, hwhole, hfraction, hexponent, hvalue, hpos,
      Option.bind_eq_bind, Option.bind_some]
    rfl

/-- An integer is read as a value. -/
theorem value?_intChars (fuel : Nat) (n : Int) {rest : List Char} (h : EndsValue rest) :
    value? (fuel + 1) (intChars n ++ rest) = some (.int n, rest) := by
  have hnumber := numberValue?_intChars n h
  obtain ⟨c, cs, hchars, hspace, hother⟩ := exists_intChars_eq_cons n
  have hskip : skip (intChars n ++ rest) = intChars n ++ rest := by
    rw [hchars, List.cons_append, skip, List.dropWhile_cons_of_neg (by simp [hspace])]
  rw [value?, hskip, ← hnumber]
  -- None of the characters that other values begin with stands in front of an integer.
  rw [hchars, List.cons_append]
  split
  all_goals first | rfl | exact absurd (List.cons.inj ‹_›).1 (hother _ rfl (by decide))

/-! ## Lists and tables -/

mutual

/-- Whether JSON expresses a value as it is: it has no decimals, no dates and no table put together
from several places. -/
def isPlain : Value → Bool
  | .null | .bool _ | .int _ | .text _ => true
  | .list vs => arePlain vs
  | .table fs => areFieldsPlain fs
  | .decimal _ | .date _ | .openTable _ | .undecodable => false

/-- Whether JSON expresses all of some values, see `isPlain`. -/
def arePlain : List Value → Bool
  | [] => true
  | v :: vs => isPlain v && arePlain vs

/-- Whether JSON expresses the values of some fields, see `isPlain`. -/
def areFieldsPlain : List (String × Value) → Bool
  | [] => true
  | f :: fs => isPlain f.2 && areFieldsPlain fs

end

/-- A list is plain if each of its items was written as a plain value. -/
theorem arePlain_map {α : Type} {write : α → Value} (h : ∀ a, isPlain (write a) = true)
    (l : List α) :
    arePlain (l.map write) = true := by
  induction l with
  | nil => rfl
  | cons a l ih => rw [List.map_cons, arePlain, h, ih, Bool.and_self]

/-- A table is plain if each of its fields was written with a plain value. -/
theorem areFieldsPlain_map {α : Type} {write : α → String × Value}
    (h : ∀ a, isPlain (write a).2 = true)
    (l : List α) : areFieldsPlain (l.map write) = true := by
  induction l with
  | nil => rfl
  | cons a l ih => rw [List.map_cons, areFieldsPlain, h, ih, Bool.and_self]

/-- A value that may be missing is plain, also as `null`. -/
theorem isPlain_ofOption {α : Type} {write : α → Value} (h : ∀ a, isPlain (write a) = true) :
    ∀ a : Option α, isPlain (.ofOption write a) = true
  | some a => h a
  | none => rfl

/-- What is written of the value `v` does not begin with a blank or as the end of a list. -/
theorem exists_chars_eq_cons {v : Value} (h : isPlain v = true) :
    ∃ c cs, chars v = c :: cs ∧ isSpace c = false ∧ c ≠ ']' := by
  cases v with
  | null => exact ⟨'n', _, rfl, rfl, by decide⟩
  | bool b => cases b <;> exact ⟨_, _, rfl, rfl, by decide⟩
  | int n =>
    obtain ⟨c, cs, hchars, hspace, hother⟩ := exists_intChars_eq_cons n
    exact ⟨c, cs, by rw [chars, hchars], hspace, hother ']' rfl (by decide)⟩
  | text s => exact ⟨'\x22', _, by rw [chars, quoted]; rfl, rfl, by decide⟩
  | list vs =>
    exact ⟨'[', (chars (.list vs)).tail, by cases vs <;> rw [chars] <;> rfl, rfl, by decide⟩
  | table fs =>
    exact ⟨'\x7b', (chars (.table fs)).tail, by cases fs <;> rw [chars] <;> rfl, rfl, by decide⟩
  | decimal d => cases h
  | date s => cases h
  | openTable fs => cases h
  | undecodable => cases h

/-- Behind an item of a list there is what ends it. -/
theorem endsValue_itemChars (vs : List Value) (rest : List Char) :
    EndsValue (itemChars vs ++ rest) := by
  intro c hc
  cases vs with
  | nil =>
    cases hc
    exact .inr (.inl rfl)
  | cons v vs =>
    rw [itemChars] at hc
    cases hc
    exact .inl rfl

/-- Behind a field of a table there is what ends it. -/
theorem endsValue_fieldChars (fs : List (String × Value)) (rest : List Char) :
    EndsValue (fieldChars fs ++ rest) := by
  intro c hc
  cases fs with
  | nil =>
    cases hc
    exact .inr (.inr rfl)
  | cons f fs =>
    rw [fieldChars] at hc
    cases hc
    exact .inl rfl

/-- Fields whose names are texts make a table. -/
theorem tableValue_map (fs : List (String × Value)) :
    tableValue (fs.map fun f => (some f.1.toList, f.2)) = .table fs := by
  have hname : ∀ f : String × Value,
      ((some f.1.toList).map fun name => (String.ofList name, f.2)) = some f := by
    intro f
    rw [Option.map_some, String.ofList_toList]
  have hnames := Value.mapM_map_some (fun f : String × Value => (some f.1.toList, f.2))
    (fun f => f.1.map fun name => (String.ofList name, f.2)) hname fs
  rw [tableValue, hnames]

section Steps

variable {fuel : Nat} {c : Char} {cs mid rest : List Char} {v : Value} {vs : List Value}

/-- A list is read from its first item and the items behind. -/
theorem value?_list_cons (hspace : isSpace c = false) (hend : c ≠ ']')
    (hfirst : value? fuel (c :: cs) = some (v, mid)) (hitems : items? fuel mid = some (vs, rest)) :
    value? (fuel + 1) ('[' :: c :: cs) = some (.list (v :: vs), rest) := by
  have hopen : skip ('[' :: c :: cs) = '[' :: c :: cs := rfl
  have hskip : skip (c :: cs) = c :: cs := List.dropWhile_cons_of_neg (by simp [hspace])
  rw [value?, hopen]
  simp only [hskip]
  split
  · rename_i heq
    exact absurd (List.cons.inj heq).1 hend
  · simp [hfirst, hitems]

/-- The items behind a comma are read from the next one and the items behind that. -/
theorem items?_cons (hfirst : value? fuel cs = some (v, mid))
    (hitems : items? fuel mid = some (vs, rest)) :
    items? (fuel + 1) (',' :: cs) = some (v :: vs, rest) := by
  have hskip : skip (',' :: cs) = ',' :: cs := rfl
  rw [items?, hskip]
  simp [hfirst, hitems]

/-- A field is read from its name and its value. -/
theorem field?_quoted {name : String} (hvalue : value? fuel cs = some (v, rest)) :
    field? (fuel + 1) (quoted name ++ ':' :: cs) = some ((some name.toList, v), rest) := by
  have hname : skip (quoted name ++ ':' :: cs) =
      '\x22' :: (name.toList.flatMap escaped ++ '\x22' :: ':' :: cs) := by
    rw [quoted_append]
    rfl
  have hcolon : skip (':' :: cs) = ':' :: cs := rfl
  rw [field?, hname]
  simp [Text.after?, textChars?_quoted, hcolon, hvalue]

variable {f : Option (List Char) × Value} {fs : List (Option (List Char) × Value)}

/-- A table is read from its first field and the fields behind. -/
theorem value?_table_cons {name : String} (hfirst : field? fuel (quoted name ++ cs) = some (f, mid))
    (hfields : fields? fuel mid = some (fs, rest)) :
    value? (fuel + 1) ('\x7b' :: (quoted name ++ cs)) = some (tableValue (f :: fs), rest) := by
  have hopen : skip ('\x7b' :: (quoted name ++ cs)) = '\x7b' :: (quoted name ++ cs) := rfl
  have hskip : skip (quoted name ++ cs) = quoted name ++ cs := by
    rw [quoted_append]
    rfl
  rw [value?, hopen]
  simp only [hskip]
  split
  · rename_i heq
    rw [quoted_append] at heq
    exact absurd (List.cons.inj heq).1 (by decide)
  · simp [hfirst, hfields]

/-- The fields behind a comma are read from the next one and the fields behind that. -/
theorem fields?_cons (hfirst : field? fuel cs = some (f, mid))
    (hfields : fields? fuel mid = some (fs, rest)) :
    fields? (fuel + 1) (',' :: cs) = some (f :: fs, rest) := by
  have hskip : skip (',' :: cs) = ',' :: cs := rfl
  rw [fields?, hskip]
  simp [hfirst, hfields]

end Steps

mutual

/-- The value `v` is read as it was written, with `fuel` for each character. -/
theorem value?_chars : ∀ {v : Value} {fuel : Nat} {rest : List Char},
    isPlain v = true → EndsValue rest →
    (chars v).length ≤ fuel → value? fuel (chars v ++ rest) = some (v, rest)
  | v, 0, _, hplain, _, hfuel => by
    obtain ⟨c, cs, hchars, _⟩ := exists_chars_eq_cons hplain
    rw [hchars] at hfuel
    cases hfuel
  | .null, fuel + 1, rest, _, _, _ => word?_append "null" .null rest
  | .bool true, fuel + 1, rest, _, _, _ => word?_append "true" (.bool true) rest
  | .bool false, fuel + 1, rest, _, _, _ => word?_append "false" (.bool false) rest
  | .int n, fuel + 1, _, _, hrest, _ => value?_intChars fuel n hrest
  | .text s, fuel + 1, rest, _, _, _ => value?_quoted fuel s rest
  | .list [], fuel + 1, _, _, _, _ => rfl
  | .list (v :: vs), fuel + 1, rest, hplain, _, hfuel => by
    rw [isPlain, arePlain, Bool.and_eq_true] at hplain
    rw [chars, List.cons_append, List.length_cons, List.length_append] at hfuel
    have hfirst :
        value? fuel (chars v ++ (itemChars vs ++ rest)) = some (v, itemChars vs ++ rest) :=
      value?_chars hplain.1 (endsValue_itemChars vs rest) (by omega)
    have hitems : items? fuel (itemChars vs ++ rest) = some (vs, rest) :=
      items?_itemChars hplain.2 (by omega)
    -- Where an item begins the list does not end.
    obtain ⟨c, cs, hchars, hspace, hend⟩ := exists_chars_eq_cons hplain.1
    rw [chars, List.cons_append, List.cons_append, List.append_assoc]
    rw [hchars, List.cons_append] at hfirst ⊢
    exact value?_list_cons hspace hend hfirst hitems
  | .table [], fuel + 1, _, _, _, _ => rfl
  | .table ((name, v) :: fs), fuel + 1, rest, hplain, _, hfuel => by
    rw [isPlain, areFieldsPlain, Bool.and_eq_true] at hplain
    simp only [chars, List.length_append, List.length_cons, List.cons_append] at hfuel
    have hnamed : (quoted name ++ ':' :: chars v).length ≤ fuel := by
      simp only [List.length_append, List.length_cons]
      omega
    have hfirst := field?_written hplain.1 (endsValue_fieldChars fs rest) hnamed
    have hfields : fields? fuel (fieldChars fs ++ rest) =
        some (fs.map fun f => (some f.1.toList, f.2), rest) :=
      fields?_fieldChars hplain.2 (by omega)
    have hvalue := value?_table_cons hfirst hfields
    rw [← List.map_cons (f := fun f : String × Value => (some f.1.toList, f.2)) (a := (name, v)),
      tableValue_map] at hvalue
    simpa [chars] using hvalue

/-- The items of a list behind the first one are read as they were written. -/
theorem items?_itemChars : ∀ {vs : List Value} {fuel : Nat} {rest : List Char}, arePlain vs = true →
    (itemChars vs).length ≤ fuel → items? fuel (itemChars vs ++ rest) = some (vs, rest)
  | vs, 0, _, _, hfuel => by cases vs <;> simp [itemChars] at hfuel
  | [], fuel + 1, _, _, _ => rfl
  | v :: vs, fuel + 1, rest, hplain, hfuel => by
    rw [arePlain, Bool.and_eq_true] at hplain
    rw [itemChars, List.cons_append, List.length_cons, List.length_append] at hfuel
    have hfirst :
        value? fuel (chars v ++ (itemChars vs ++ rest)) = some (v, itemChars vs ++ rest) :=
      value?_chars hplain.1 (endsValue_itemChars vs rest) (by omega)
    have hitems : items? fuel (itemChars vs ++ rest) = some (vs, rest) :=
      items?_itemChars hplain.2 (by omega)
    rw [itemChars, List.cons_append, List.cons_append, List.append_assoc]
    exact items?_cons hfirst hitems

/-- A field of a table is read as it was written, with its name and a colon. -/
theorem field?_written : ∀ {name : String} {v : Value} {fuel : Nat} {rest : List Char},
    isPlain v = true →
    EndsValue rest → (quoted name ++ ':' :: chars v).length ≤ fuel →
    field? fuel (quoted name ++ ':' :: (chars v ++ rest)) = some ((some name.toList, v), rest)
  | name, v, 0, _, _, _, hfuel => by simp at hfuel
  | name, v, fuel + 1, rest, hplain, hrest, hfuel => by
    refine field?_quoted (value?_chars hplain hrest ?_)
    rw [List.length_append, List.length_cons] at hfuel
    omega

/-- The fields of a table behind the first one are read as they were written. -/
theorem fields?_fieldChars : ∀ {fs : List (String × Value)} {fuel : Nat} {rest : List Char},
    areFieldsPlain fs = true → (fieldChars fs).length ≤ fuel →
    fields? fuel (fieldChars fs ++ rest) = some (fs.map fun f => (some f.1.toList, f.2), rest)
  | fs, 0, _, _, hfuel => by cases fs <;> simp [fieldChars] at hfuel
  | [], fuel + 1, _, _, _ => rfl
  | (name, v) :: fs, fuel + 1, rest, hplain, hfuel => by
    rw [areFieldsPlain, Bool.and_eq_true] at hplain
    simp only [fieldChars, List.length_append, List.length_cons, List.cons_append] at hfuel
    have hnamed : (quoted name ++ ':' :: chars v).length ≤ fuel := by
      simp only [List.length_append, List.length_cons]
      omega
    have hfirst := field?_written hplain.1 (endsValue_fieldChars fs rest) hnamed
    have hfields : fields? fuel (fieldChars fs ++ rest) =
        some (fs.map fun f => (some f.1.toList, f.2), rest) :=
      fields?_fieldChars hplain.2 (by omega)
    have hall := fields?_cons hfirst hfields
    simpa [fieldChars] using hall

end

/-! ## Whole texts -/

/-- A value `v` that JSON expresses is read as it was written. -/
theorem read?_write {v : Value} (h : isPlain v = true) : read? (write v) = some v := by
  have hvalue : value? (2 * (chars v).length + 1) (chars v ++ []) = some (v, []) :=
    value?_chars h endsValue_nil (by omega)
  rw [List.append_nil] at hvalue
  rw [read?, write, String.toList_ofList, readChars?, hvalue]
  rfl

end DocSearch.Json
