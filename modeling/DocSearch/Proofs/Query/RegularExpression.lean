import DocSearch.Proofs.Query.OwnWords

/-!
# Patterns as regular expressions

The index is given a pattern as the text of a regular expression, behind the escaped name for a
property (`Target.regex`).  Here such texts are read back.

* `Regex.read?` reads characters, dots, characters behind a backslash and how often each of them is
  repeated, and refuses every other use of a mark.  `Regex.Denotes` says which texts the parts that
  were read stand for.  Neither knows of patterns.
* The text of a pattern is written piece by piece (`Wildcard.toList_regexFrom`, for every place
  where the loop that writes it stands).
* It is read as one part for each of its characters, since no part begins with a mark for repetition
  and so none changes how often the one in front of it stands (`Wildcard.sequence?_symbols`).
* The parts stand for the texts that the pattern does (`Wildcard.denotes_parts_iff`), which are
  those made from it by replacing the wildcards (`Wildcard.fits_iff_madeFrom`).

The result is stated in `regexOf_accepts_iff`, with and without a name in front, and for what a
clause of the index is met by.
-/

namespace DocSearch

namespace Regex

open Wildcard

/-! ## Reading -/

/-- What stands for one character of a text. -/
inductive Atom where
  | char (c : Char)
  /-- a mark behind a backslash -/
  | mark (c : Char)
  /-- a dot -/
  | any
deriving DecidableEq, Repr

/-- How often an atom stands. -/
inductive Times where
  | once
  | optional
  | star
  | plus
deriving DecidableEq, Repr

/-- A part of a regular expression. -/
structure Part where
  atom : Atom
  times : Times
deriving DecidableEq, Repr

/-- What is written with one character, or with two if the first is a backslash. -/
inductive Symbol where
  | atom (a : Atom)
  | times (t : Times)
deriving DecidableEq, Repr

/-- What a character means that no backslash precedes; `none` if it opens or ends something else
than parts. -/
def Symbol.of? (c : Char) : Option Symbol :=
  if c = '.' then some (.atom .any)
  else if c = '*' then some (.times .star)
  else if c = '+' then some (.times .plus)
  else if c = '?' then some (.times .optional)
  else if ['\\', '(', ')', '|', '[', '\x7b', '^', '$'].contains c then none
  else some (.atom (.char c))

/-- The symbols of a regular expression; `none` if it is made of other things as well. -/
def symbols? : List Char → Option (List Symbol)
  | [] => some []
  | '\\' :: c :: cs => if regexMarks.contains c then
    (symbols? cs).map (.atom (.mark c) :: ·) else none
  | c :: cs => do pure ((← Symbol.of? c) :: (← symbols? cs))

/-- The parts that symbols make up; `none` if there is a repetition of nothing or of a
repetition. -/
def sequence? : List Symbol → Option (List Part)
  | [] => some []
  | .times _ :: _ => none
  | .atom a :: .times t :: ss => (sequence? ss).map (⟨a, t⟩ :: ·)
  | .atom a :: ss => (sequence? ss).map (⟨a, .once⟩ :: ·)

/-- The parts of a regular expression; `none` if it is not one, or not one that is made of such
parts alone. -/
def read? (regex : String) : Option (List Part) := (symbols? regex.toList).bind sequence?

example : read? "\\[x]+" = some [⟨.mark '[', .once⟩, ⟨.char 'x', .once⟩, ⟨.char ']', .plus⟩] ∧
  read? ".**" = none := by
  decide

/-- A character without a backslash is read by itself. -/
theorem symbols?_cons {c : Char} (hc : c ≠ '\\') (cs : List Char) :
    symbols? (c :: cs) = (Symbol.of? c).bind fun s => (symbols? cs).map (s :: ·) := by
  rw [symbols?]
  · cases Symbol.of? c <;> cases symbols? cs <;> rfl
  · intro d ds heq
    exact absurd heq hc

/-- A character that is no mark (`regexMarks`) stands for itself. -/
theorem Symbol.of?_eq_char {c : Char} (h : c ∉ regexMarks) : of? c = some (.atom (.char c)) := by
  simp only [regexMarks, List.mem_cons, List.not_mem_nil, or_false, not_or] at h
  simp [of?, h]

/-- An atom stands once if no repetition follows. -/
theorem sequence?_atom {a : Atom} {ss : List Symbol} (h : ∀ t, Symbol.times t ∉ ss.head?) :
    sequence? (.atom a :: ss) = (sequence? ss).map (⟨a, .once⟩ :: ·) := by
  cases ss with
  | nil => rfl
  | cons s ss =>
    cases s with
    | atom b => rfl
    | times t => exact absurd rfl (h t)

/-! ## Meaning -/

/-- The characters that an atom stands for; for a dot these are all but the line feed. -/
def Atom.Admits : Atom → Char → Prop
  | .char d, c => c = d
  | .mark d, c => c = d
  | .any, c => c ≠ '\n'

/-- How many times are often enough and not too often. -/
def Times.Allows : Times → Nat → Prop
  | .once, n => n = 1
  | .optional, n => n ≤ 1
  | .star, _ => True
  | .plus, n => 1 ≤ n

/-- The texts that parts stand for as a whole. -/
def Denotes : List Part → List Char → Prop
  | [], t => t = []
  | p :: ps, t => ∃ u v, t = u ++ v ∧ p.times.Allows u.length ∧ (∀ c ∈ u, p.atom.Admits c) ∧
    Denotes ps v

/-- The regular expression can be read, and the whole `text` is one that it stands for. -/
def Accepts (regex text : String) : Prop := ∃ ps, read? regex = some ps ∧ Denotes ps text.toList

/-- A single character, a mark behind a backslash, a dot, or a dot and a star. -/
def Part.IsPlain (p : Part) : Prop := p.times = .once ∨ p = ⟨.any, .star⟩

/-- The regular expression can be read, and is made of plain parts only. -/
def IsPlain (regex : String) : Prop := ∃ ps, read? regex = some ps ∧ ∀ p ∈ ps, p.IsPlain

theorem denotes_once {a : Atom} {ps : List Part} {t : List Char} :
    Denotes (⟨a, .once⟩ :: ps) t ↔ ∃ c r, t = c :: r ∧ a.Admits c ∧ Denotes ps r := by
  constructor
  · rintro ⟨u, r, rfl, hlength, hadmits, hr⟩
    obtain ⟨c, rfl⟩ := List.length_eq_one_iff.mp hlength
    exact ⟨c, r, rfl, hadmits c (.head _), hr⟩
  · rintro ⟨c, r, rfl, hadmits, hr⟩
    exact ⟨[c], r, rfl, rfl, List.forall_mem_singleton.mpr hadmits, hr⟩

end Regex

namespace Wildcard

open Regex

/-! ## The text of a pattern -/

/-- A part of a pattern as a regular expression. -/
def Piece.regex : Piece → List Char
  | .literal c => escapedChar c
  | .one => ['.']
  | .run => ['.', '*']

/-- Wherever the reading of a pattern stands, what was read and is not written yet, `run`, comes in
front of the rest. -/
theorem toList_regexFrom : ∀ (cs : List Char) (written run : String),
    (regexFrom written run cs).toList =
    written.toList ++ (run.toList.flatMap escapedChar ++ (cs.map piece).flatMap Piece.regex)
  | [], written, run => by simp [regexFrom, escaped]
  | c :: cs, written, run => by
    rw [regexFrom, List.map_cons, List.flatMap_cons]
    split
    · rename_i hstar
      rw [toList_regexFrom cs, hstar]
      simp [escaped, piece, Piece.regex]
    · rename_i hstar
      split
      · rename_i hmark
        rw [toList_regexFrom cs, hmark]
        simp [escaped, piece, Piece.regex]
      · rename_i hmark
        rw [toList_regexFrom cs, piece, if_neg hstar, if_neg hmark]
        simp [Piece.regex]

/-- The text of a pattern is that of its pieces. -/
theorem toList_regexOf (s : String) : (regexOf s).toList = (pattern s).flatMap Piece.regex := by
  rw [regexOf, toList_regexFrom]
  simp [pattern]

/-- An escaped text is that of a pattern without wildcards. -/
theorem toList_escaped (s : String) : (escaped s).toList = (literally s).flatMap Piece.regex := by
  rw [escaped, String.toList_ofList, literally, List.flatMap_map]
  rfl

/-! ## Reading it back -/

/-- A character that stands for itself, with a backslash if it is a mark. -/
def literalAtom (c : Char) : Atom := if regexMarks.contains c then .mark c else .char c

/-- What a part of a pattern is read as. -/
def Piece.part : Piece → Part
  | .literal c => ⟨literalAtom c, .once⟩
  | .one => ⟨.any, .once⟩
  | .run => ⟨.any, .star⟩

/-- The symbols of a part of a pattern. -/
def Piece.symbols : Piece → List Symbol
  | .literal c => [.atom (literalAtom c)]
  | .one => [.atom .any]
  | .run => [.atom .any, .times .star]

theorem symbols?_literal (c : Char) (cs : List Char) :
    symbols? (escapedChar c ++ cs) = (symbols? cs).map (.atom (literalAtom c) :: ·) := by
  by_cases hmark : regexMarks.contains c = true
  · rw [escapedChar, literalAtom, if_pos hmark, if_pos hmark, List.cons_append,
      List.singleton_append, symbols?, if_pos hmark]
  · have hnot : c ∉ regexMarks := by simpa using hmark
    have hslash : c ≠ '\\' := fun heq => hnot (heq ▸ .head _)
    rw [escapedChar, literalAtom, if_neg hmark, if_neg hmark, List.singleton_append,
      symbols?_cons hslash, Symbol.of?_eq_char hnot, Option.bind_some]

theorem symbols?_piece (p : Piece) (cs : List Char) :
    symbols? (p.regex ++ cs) = (symbols? cs).map (p.symbols ++ ·) := by
  cases p with
  | literal c => exact symbols?_literal c cs
  | one => exact symbols?_cons (by decide) cs
  | run =>
    change symbols? ('.' :: '*' :: cs) = _
    rw [symbols?_cons (by decide), symbols?_cons (by decide)]
    cases symbols? cs <;> rfl

theorem symbols?_regex (ps : List Piece) :
    symbols? (ps.flatMap Piece.regex) = some (ps.flatMap Piece.symbols) := by
  induction ps with
  | nil => rfl
  | cons p ps ih => rw [List.flatMap_cons, symbols?_piece, ih, Option.map_some, List.flatMap_cons]

/-- No part of a pattern begins with a repetition. -/
theorem head?_symbols (ps : List Piece) (t : Times) :
    Symbol.times t ∉ (ps.flatMap Piece.symbols).head? := by
  cases ps with
  | nil => simp
  | cons p ps => cases p <;> simp [Piece.symbols]

/-- The symbols of some pieces make up one part for each of them. -/
theorem sequence?_symbols : ∀ ps : List Piece,
    sequence? (ps.flatMap Piece.symbols) = some (ps.map Piece.part)
  | [] => rfl
  | .literal c :: ps => by
    rw [List.flatMap_cons, Piece.symbols, List.singleton_append, sequence?_atom (head?_symbols ps),
      sequence?_symbols ps]
    rfl
  | .one :: ps => by
    rw [List.flatMap_cons, Piece.symbols, List.singleton_append, sequence?_atom (head?_symbols ps),
      sequence?_symbols ps]
    rfl
  | .run :: ps => by
    have ih := sequence?_symbols ps
    rw [List.flatMap_cons]
    change (sequence? (ps.flatMap Piece.symbols)).map _ = _
    rw [ih]
    rfl

/-- The text of some parts of a pattern is read back as these parts. -/
theorem read?_eq {regex : String} {ps : List Piece} (h : regex.toList = ps.flatMap Piece.regex) :
    read? regex = some (ps.map Piece.part) := by
  rw [read?, h, symbols?_regex, Option.bind_some, sequence?_symbols]

theorem isPlain_part (p : Piece) : p.part.IsPlain := by
  cases p with
  | literal c => exact .inl rfl
  | one => exact .inl rfl
  | run => exact .inr rfl

/-! ## The texts of a pattern -/

theorem admits_literalAtom {c d : Char} : (literalAtom c).Admits d ↔ d = c := by
  rw [literalAtom]
  split <;> exact Iff.rfl

/-- What a pattern is read as stands for the texts that the pattern stands for (`Fits`). -/
theorem denotes_parts_iff : ∀ (ps : List Piece) (t : List Char),
    Denotes (ps.map Piece.part) t ↔ Fits ps t
  | [], _ => Iff.rfl
  | .literal c :: ps, t => by
    rw [List.map_cons, Piece.part, denotes_once, Fits]
    simp only [admits_literalAtom, denotes_parts_iff ps]
    constructor
    · rintro ⟨_, r, rfl, rfl, hr⟩
      exact ⟨r, rfl, hr⟩
    · rintro ⟨r, rfl, hr⟩
      exact ⟨c, r, rfl, rfl, hr⟩
  | .one :: ps, t => by
    rw [List.map_cons, Piece.part, denotes_once, Fits]
    simp only [Atom.Admits, denotes_parts_iff ps]
  | .run :: ps, t => by
    rw [List.map_cons, Piece.part, Denotes, Fits]
    simp only [Times.Allows, Atom.Admits, true_and, denotes_parts_iff ps]

/-- The texts that stand for a character of a pattern: for `*` those without a line feed, for `?`
those of one character that is no line feed, and for any other character the character itself. -/
def Replaces (c : Char) (u : List Char) : Prop :=
  if c = '*' then '\n' ∉ u else if c = '?' then ∃ d, u = [d] ∧ d ≠ '\n' else u = [c]

/-- A `text` is made from a `pattern` by replacing its characters one by one. -/
def MadeFrom (pattern text : String) : Prop :=
  ∃ us, List.Forall₂ Replaces pattern.toList us ∧ us.flatten = text.toList

/-- A pattern stands for what replaces its first character, with what the rest stands for behind
it. -/
theorem fits_piece_cons {c : Char} {ps : List Piece} {t : List Char} :
    Fits (piece c :: ps) t ↔ ∃ u r, t = u ++ r ∧ Replaces c u ∧ Fits ps r := by
  by_cases hstar : c = '*'
  · have hreplaces : ∀ u, Replaces c u ↔ ∀ d ∈ u, d ≠ '\n' := by
      intro u
      rw [Replaces, if_pos hstar]
      exact ⟨fun h d hd heq => h (heq ▸ hd), fun h hmem => h _ hmem rfl⟩
    rw [piece, if_pos hstar, Fits]
    simp only [hreplaces]
  · by_cases hmark : c = '?'
    · have hreplaces : ∀ u, Replaces c u ↔ ∃ d, u = [d] ∧ d ≠ '\n' := by
        intro u
        rw [Replaces, if_neg hstar, if_pos hmark]
      rw [piece, if_neg hstar, if_pos hmark, Fits]
      simp only [hreplaces]
      constructor
      · rintro ⟨d, r, rfl, hd, hr⟩
        exact ⟨[d], r, rfl, ⟨d, rfl, hd⟩, hr⟩
      · rintro ⟨_, r, rfl, ⟨d, rfl, hd⟩, hr⟩
        exact ⟨d, r, rfl, hd, hr⟩
    · have hreplaces : ∀ u, Replaces c u ↔ u = [c] := by
        intro u
        rw [Replaces, if_neg hstar, if_neg hmark]
      rw [piece, if_neg hstar, if_neg hmark, Fits]
      simp only [hreplaces]
      constructor
      · rintro ⟨r, rfl, hr⟩
        exact ⟨[c], r, rfl, rfl, hr⟩
      · rintro ⟨_, r, rfl, rfl, hr⟩
        exact ⟨r, rfl, hr⟩

theorem fits_iff_replaced : ∀ {cs t : List Char},
    Fits (cs.map piece) t ↔ ∃ us, List.Forall₂ Replaces cs us ∧ us.flatten = t
  | [], t => by simp [Fits, eq_comm]
  | c :: cs, t => by
    rw [List.map_cons, fits_piece_cons]
    simp only [fits_iff_replaced, List.forall₂_cons_left_iff]
    constructor
    · rintro ⟨u, _, rfl, hu, us, hus, rfl⟩
      exact ⟨u :: us, ⟨u, us, hu, hus, rfl⟩, rfl⟩
    · rintro ⟨_, ⟨u, us, hu, hus, rfl⟩, rfl⟩
      exact ⟨u, us.flatten, rfl, hu, us, hus, rfl⟩

/-- The texts that a `pattern` stands for are those made from it. -/
theorem fits_iff_madeFrom {pattern text : String} :
    Fits (Wildcard.pattern pattern) text.toList ↔ MadeFrom pattern text := fits_iff_replaced

/-- From a text without wildcards only the text itself is made. -/
theorem madeFrom_iff_eq {pattern text : String} (h : hasWildcard pattern = false) :
    MadeFrom pattern text ↔ text = pattern := by
  rw [← fits_iff_madeFrom, pattern_of_hasWildcard h, fits_literals, String.toList_inj]

end Wildcard

open Wildcard

/-! ## What the index is given -/

namespace Target

theorem toList_regex (t : Target) (pattern : String) :
    (t.regex pattern).toList =
      (literally t.lead ++ Wildcard.pattern pattern).flatMap Piece.regex := by
  rw [List.flatMap_append, ← toList_escaped, ← toList_regexOf]
  cases t with
  | field f => rfl
  | property name => exact String.toList_append

theorem isPlain_regex (t : Target) (pattern : String) : Regex.IsPlain (t.regex pattern) := by
  refine ⟨_, read?_eq (t.toList_regex pattern), ?_⟩
  exact List.forall_mem_map.mpr fun p _ => isPlain_part p

/-- The regular expression stands for what the index compares terms with. -/
theorem accepts_regex_iff {t : Target} {pattern text : String} :
    Regex.Accepts (t.regex pattern) text ↔
      Fits (literally t.lead ++ Wildcard.pattern pattern) text.toList := by
  rw [Regex.Accepts, read?_eq (t.toList_regex pattern)]
  simp only [Option.some.injEq, exists_eq_left', denotes_parts_iff]

/-- It stands for the name with a value behind it that is made from the `pattern`. -/
theorem accepts_regex_iff_madeFrom {t : Target} {pattern text : String} :
    Regex.Accepts (t.regex pattern) text ↔
      ∃ value, text = t.lead ++ value ∧ MadeFrom pattern value := by
  rw [accepts_regex_iff, literally, fits_literally_append]
  constructor
  · rintro ⟨r, heq, hr⟩
    refine ⟨String.ofList r, ?_, ?_⟩
    · rw [← String.toList_inj, heq]
      simp
    · rwa [← fits_iff_madeFrom, String.toList_ofList]
  · rintro ⟨value, rfl, hvalue⟩
    exact ⟨value.toList, String.toList_append, fits_iff_madeFrom.mpr hvalue⟩

end Target

/-- What the regular expression of a pattern stands for:
* It is made of plain parts and stands for the texts that are made from the pattern (`MadeFrom`),
  and behind the name of a property for these behind the name.
* Without wildcards that is the pattern itself.
* A clause for the pattern is met by the documents with a term that the regular expression stands
  for. -/
theorem regexOf_accepts_iff (pattern : String) :
    (Regex.IsPlain (regexOf pattern) ∧ ∀ text, Regex.Accepts (regexOf pattern) text ↔
      MadeFrom pattern text) ∧
    (∀ name, Regex.IsPlain ((Target.property name).regex pattern) ∧
      ∀ text, Regex.Accepts ((Target.property name).regex pattern) text ↔
        ∃ value, text = name ++ "=" ++ value ∧ MadeFrom pattern value) ∧
    (hasWildcard pattern = false →
      (∀ text, Regex.Accepts (regexOf pattern) text ↔ text = pattern) ∧
      ∀ name text, Regex.Accepts ((Target.property name).regex pattern) text ↔
        text = name ++ "=" ++ pattern) ∧
    ∀ (t : Target) (has : Phrase → List Token → Bool) (d : Document),
      (t.fitting pattern).holdsBy has d = true ↔
        ∃ term ∈ d.terms t.indexField, Regex.Accepts (t.regex pattern) term := by
  have hmade : ∀ text, Regex.Accepts (regexOf pattern) text ↔ MadeFrom pattern text := by
    intro text
    -- A field puts nothing in front of the pattern, so `regexOf` is its regular expression.
    change Regex.Accepts ((Target.field .name).regex pattern) text ↔ _
    simp [Target.accepts_regex_iff_madeFrom, Target.lead]
  have hproperty : ∀ name text, Regex.Accepts ((Target.property name).regex pattern) text ↔
      ∃ value, text = name ++ "=" ++ value ∧ MadeFrom pattern value :=
    fun name text => Target.accepts_regex_iff_madeFrom
  refine ⟨⟨(Target.field .name).isPlain_regex pattern, hmade⟩, ?_, ?_, ?_⟩
  · intro name
    exact ⟨(Target.property name).isPlain_regex pattern, hproperty name⟩
  · intro hplain
    constructor
    · intro text
      rw [hmade, madeFrom_iff_eq hplain]
    · intro name text
      simp only [hproperty, madeFrom_iff_eq hplain, exists_eq_right]
  · intro t has d
    rw [Target.fitting, Condition.holdsBy, List.any_eq_true]
    simp only [Target.accepts_regex_iff, fits_iff]

/-- A name with marks in it stands for itself alone, also behind the name of a property. -/
theorem regexOf_accepts_report : Wildcard.hasWildcard "a.c (v1)+" = false ∧
    (∀ text, Regex.Accepts (regexOf "a.c (v1)+") text ↔ text = "a.c (v1)+") ∧
    ∀ text, Regex.Accepts ((Target.property "form:a").regex "a.c (v1)+") text ↔
      text = "form:a=a.c (v1)+" := by
  obtain ⟨_, _, hplain, _⟩ := regexOf_accepts_iff "a.c (v1)+"
  obtain ⟨hfield, hproperty⟩ := hplain (by decide)
  exact ⟨by decide, hfield, hproperty "form:a"⟩

end DocSearch
