/-!
# Wildcard patterns

In a pattern `*` stands for any run of characters and `?` for one character, neither of them for a
line feed; every other character stands for itself.

`Fits` says which texts a pattern stands for, by the parts of the pattern.  `fits` decides it by
going through the pattern once and keeping, for every rest of the text, whether it fits
(`restsThatFit`); `fits_iff` says that the two agree, part by part of the pattern (`fits_literal`,
`fits_one`, `fits_run`).

`regexOf` is the pattern as a regular expression, which is what the index is given.  It is written
in one pass, in which the characters between two wildcards are held back until they can be escaped
together.
-/

namespace DocSearch.Wildcard

/-- A part of a pattern. -/
inductive Piece where
  | literal (c : Char)
  /-- one character -/
  | one
  /-- any run of characters -/
  | run
deriving DecidableEq, Repr

/-- What the character `c` of a pattern stands for. -/
def piece (c : Char) : Piece := if c = '*' then .run else if c = '?' then .one else .literal c

/-- The parts of the pattern `s`, one for each character. -/
def pattern (s : String) : List Piece := s.toList.map piece

/-- The pattern that stands for the text `s` only. -/
def literally (s : String) : List Piece := s.toList.map .literal

/-- Whether `s` contains `*` or `?`. -/
def hasWildcard (s : String) : Bool := s.toList.any fun c => c == '*' || c == '?'

/-- The texts that a pattern stands for. -/
def Fits : List Piece → List Char → Prop
  | [], t => t = []
  | .literal c :: p, t => ∃ r, t = c :: r ∧ Fits p r
  | .one :: p, t => ∃ c r, t = c :: r ∧ c ≠ '\n' ∧ Fits p r
  | .run :: p, t => ∃ a b, t = a ++ b ∧ (∀ c ∈ a, c ≠ '\n') ∧ Fits p b

/-! ## Deciding -/

/-- For every rest of a text, the text itself first, whether it is empty. -/
def emptyRests : List Char → List Bool
  | [] => [true]
  | _ :: t => false :: emptyRests t

/-- For every rest, whether it is a character of class `ok` and a rest that fits what follows; `row`
says which rests do. -/
def oneThen (ok : Char → Bool) : List Char → (row : List Bool) → List Bool
  | [], _ => [false]
  | c :: t, row => (ok c && row.tail.headD false) :: oneThen ok t row.tail

/-- For every rest, whether some run leads to a rest that fits what follows, `row` being as in
`oneThen`. -/
def runThen : List Char → (row : List Bool) → List Bool
  | [], row => [row.headD false]
  | c :: t, row =>
    let rest := runThen t row.tail
    (row.headD false || (c != '\n' && rest.headD false)) :: rest

/-- For every rest of a text, the text itself first, whether it fits the pattern. -/
def restsThatFit : List Piece → List Char → List Bool
  | [], t => emptyRests t
  | .literal c :: p, t => oneThen (· == c) t (restsThatFit p t)
  | .one :: p, t => oneThen (· != '\n') t (restsThatFit p t)
  | .run :: p, t => runThen t (restsThatFit p t)

/-- Whether the text `t` fits the pattern `p`. -/
def fits (p : List Piece) (t : List Char) : Bool := (restsThatFit p t).headD false

/-- The row of `c :: t` goes on as the row of `t`: a rest fits whatever stands before it. -/
theorem tail_restsThatFit (c : Char) (t : List Char) :
    ∀ p, (restsThatFit p (c :: t)).tail = restsThatFit p t
  | [] => rfl
  | .literal _ :: p => by simp [restsThatFit, oneThen, tail_restsThatFit c t p]
  | .one :: p => by simp [restsThatFit, oneThen, tail_restsThatFit c t p]
  | .run :: p => by simp [restsThatFit, runThen, tail_restsThatFit c t p]

/-- The empty pattern stands for the empty text, as in `Fits`. -/
theorem fits_nil (t : List Char) : fits [] t = true ↔ t = [] := by
  cases t <;> simp [fits, restsThatFit, emptyRests]

/-- A literal stands for its character. -/
theorem fits_literal {d : Char} {p : List Piece} {t : List Char} :
    fits (.literal d :: p) t = true ↔ ∃ r, t = d :: r ∧ fits p r = true := by
  cases t with
  | nil => simp [fits, restsThatFit, oneThen]
  | cons c t =>
    simp only [fits, restsThatFit, oneThen, tail_restsThatFit, List.headD_cons, Bool.and_eq_true,
      beq_iff_eq]
    constructor
    · rintro ⟨rfl, h⟩
      exact ⟨t, rfl, h⟩
    · rintro ⟨r, h, hr⟩
      cases h
      exact ⟨rfl, hr⟩

/-- `?` stands for one character that is not a line feed. -/
theorem fits_one {p : List Piece} {t : List Char} :
    fits (.one :: p) t = true ↔ ∃ c r, t = c :: r ∧ c ≠ '\n' ∧ fits p r = true := by
  cases t with
  | nil => simp [fits, restsThatFit, oneThen]
  | cons c t =>
    simp only [fits, restsThatFit, oneThen, tail_restsThatFit, List.headD_cons, Bool.and_eq_true,
      bne_iff_ne]
    constructor
    · rintro ⟨hc, h⟩
      exact ⟨c, t, rfl, hc, h⟩
    · rintro ⟨c', r, h, hc, hr⟩
      cases h
      exact ⟨hc, hr⟩

/-- `*` stands for any run without a line feed; the run is split off by induction on the text. -/
theorem fits_run {p : List Piece} {t : List Char} : fits (.run :: p) t = true ↔
    ∃ a b, t = a ++ b ∧ (∀ c ∈ a, c ≠ '\n') ∧ fits p b = true := by
  induction t with
  | nil =>
    simp only [fits, restsThatFit, runThen, List.headD_cons]
    constructor
    · intro h
      exact ⟨[], [], rfl, by simp, h⟩
    · rintro ⟨a, b, h, _, hb⟩
      obtain ⟨rfl, rfl⟩ := List.append_eq_nil_iff.mp h.symm
      exact hb
  | cons c t ih =>
    -- The run ends before `c` or takes it in; the table of rests already holds the second answer.
    have step : fits (.run :: p) (c :: t) = true ↔
        fits p (c :: t) = true ∨ (c ≠ '\n' ∧ fits (.run :: p) t = true) := by
      simp [fits, restsThatFit, runThen, tail_restsThatFit]
    rw [step, ih]
    constructor
    · rintro (h | ⟨hc, a, b, rfl, ha, hb⟩)
      · exact ⟨[], c :: t, rfl, by simp, h⟩
      · refine ⟨c :: a, b, rfl, fun d hd => ?_, hb⟩
        rcases List.mem_cons.mp hd with rfl | hd
        · exact hc
        · exact ha d hd
    · rintro ⟨a, b, h, ha, hb⟩
      cases a with
      | nil => exact .inl (by rw [h]; exact hb)
      | cons d a =>
        injection h with h₁ h₂
        subst h₁
        exact .inr ⟨ha c (.head _), a, b, h₂, fun d hd => ha d (.tail _ hd), hb⟩

/-- `fits` decides `Fits`. -/
theorem fits_iff : ∀ {p : List Piece} {t : List Char}, fits p t = true ↔ Fits p t
  | [], t => fits_nil t
  | .literal _ :: p, t => by simp only [fits_literal, Fits, fits_iff (p := p)]
  | .one :: p, t => by simp only [fits_one, Fits, fits_iff (p := p)]
  | .run :: p, t => by simp only [fits_run, Fits, fits_iff (p := p)]

/-! ## As a regular expression -/

/-- The characters that mean something in a regular expression. -/
def regexMarks : List Char :=
  ['\\', '.', '+', '*', '?', '(', ')', '|', '[', ']', '\x7b', '\x7d', '^', '$', '#', '&', '-', '~']

/-- The character `c` as a regular expression that stands for it alone. -/
def escapedChar (c : Char) : List Char := if regexMarks.contains c then ['\\', c] else [c]

/-- The text `s` as a regular expression that stands for it alone. -/
def escaped (s : String) : String := String.ofList (s.toList.flatMap escapedChar)

/-- The rest of a pattern as a regular expression behind what is `written`.  The characters in `run`
were read since the last wildcard; they are written when the next one is met, or the end. -/
def regexFrom (written run : String) : List Char → String
  | [] => written ++ escaped run
  | c :: cs =>
    if c = '*' then regexFrom (written ++ escaped run ++ ".*") "" cs
    else if c = '?' then regexFrom (written ++ escaped run ++ ".") "" cs
    else regexFrom written (run.push c) cs

/-- The pattern `s` as a regular expression. -/
def regexOf (s : String) : String := regexFrom "" "" s.toList

example : regexOf "a.b*?" = "a\\.b.*." := by decide +kernel

example : fits (pattern "*a?c*") "xxabcy".toList = true ∧
  fits (pattern "a*") "a\nb".toList = false := by
  decide

end DocSearch.Wildcard
