import DocSearch.Proofs.Calendar.KeyOrder
import DocSearch.Text.Digits

/-!
# Reading written numbers

The digits of a number have its value (`valueOf_padded`), and a reader that takes digits takes those
that were written and no more, because it stops at its limit or because no digit follows
(`takeDigits_append`).

So a number is read as it was written,

* with a fixed number of places, whatever follows (`number?_padded`),
* with as many places as it needs, if no digit follows (`number?_paddedAtLeast`).

How many places a number needs is counted by `places`, and there is one for every digit
(`placesWithin_bounds`).
-/

namespace DocSearch.Text

/-! ## Digits -/

theorem isDigit_lastDigit (n : Nat) : (lastDigit n).isDigit = true := by
  have hdigit : ∀ d < 10, (Char.ofNat (48 + d)).isDigit = true := by decide
  exact hdigit (n % 10) (Nat.mod_lt n (by decide))

theorem isDigit_of_mem_padded {c : Char} : ∀ {width n : Nat}, c ∈ padded width n → c.isDigit = true
  | width + 1, n, h => by
    rw [padded, List.mem_append, List.mem_singleton] at h
    rcases h with h | rfl
    · exact isDigit_of_mem_padded h
    · exact isDigit_lastDigit n

theorem valueOf_append_singleton (ds : List Char) (c : Char) :
    valueOf (ds ++ [c]) = valueOf ds * 10 + digitValue c := by
  rw [valueOf, List.foldl_append, List.foldl_cons, List.foldl_nil, valueOf]

theorem valueOf_padded : ∀ {width n : Nat}, n < Nat.pow 10 width → valueOf (padded width n) = n
  | 0, n, h => by
    have h : n < 1 := h
    have hzero : valueOf (padded 0 n) = 0 := rfl
    omega
  | width + 1, n, h => by
    have h : n < Nat.pow 10 width * 10 := h
    have hfront : valueOf (padded width (n / 10)) = n / 10 := valueOf_padded (by omega)
    rw [padded, valueOf_append_singleton, hfront, digitValue, toNat_lastDigit]
    omega

/-- The first of the places of a number is its digit of the highest order. -/
theorem padded_succ : ∀ width n : Nat,
    padded (width + 1) n = lastDigit (n / Nat.pow 10 width) :: padded width n
  | 0, n => by
    have hwhole : n / Nat.pow 10 0 = n := Nat.div_one n
    rw [hwhole]
    rfl
  | width + 1, n => by
    have hdiv : n / Nat.pow 10 (width + 1) = n / 10 / Nat.pow 10 width := by
      rw [Nat.div_div_eq_div_mul, Nat.mul_comm]
      rfl
    rw [padded, padded_succ width (n / 10), hdiv]
    rfl

/-! ## The number of places -/

/-- There is a place for every digit of a number, and none but the only one is filled with a zero in
front. -/
theorem placesWithin_bounds : ∀ {fuel n : Nat}, n ≤ fuel → ∃ width,
    placesWithin fuel n = width + 1 ∧
    n < Nat.pow 10 (width + 1) ∧ (width = 0 ∨ Nat.pow 10 width ≤ n)
  | 0, n, h => by
    refine ⟨0, rfl, ?_, .inl rfl⟩
    change n < 10
    omega
  | fuel + 1, n, h => by
    rw [placesWithin]
    split
    · exact ⟨0, rfl, ‹n < 10›, .inl rfl⟩
    · have hfuel : n / 10 ≤ fuel := by omega
      obtain ⟨width, hplaces, hlt, hle⟩ := placesWithin_bounds hfuel
      have hpow : Nat.pow 10 (width + 1 + 1) = Nat.pow 10 (width + 1) * 10 := rfl
      have hpow' : Nat.pow 10 (width + 1) = Nat.pow 10 width * 10 := rfl
      refine ⟨width + 1, by rw [hplaces], by omega, .inr ?_⟩
      rcases hle with rfl | hle
      · have hone : Nat.pow 10 0 = 1 := rfl
        omega
      · omega

theorem lt_pow_places (n : Nat) : n < Nat.pow 10 (places n) := by
  obtain ⟨width, hplaces, hlt, _⟩ := placesWithin_bounds (Nat.le_refl n)
  rw [places, hplaces]
  exact hlt

theorem lt_pow_of_places_le {width n : Nat} (h : places n ≤ width) : n < Nat.pow 10 width :=
  Nat.lt_of_lt_of_le (lt_pow_places n) (Nat.pow_le_pow_right (by decide) h)

theorem valueOf_decimal (n : Nat) : valueOf (decimal n) = n := valueOf_padded (lt_pow_places n)

/-- A number other than zero is not written with a zero in front. -/
theorem exists_decimal_eq_cons {n : Nat} (h : n ≠ 0) :
    ∃ c cs, decimal n = c :: cs ∧ c ≠ '0' ∧ c.isDigit = true := by
  obtain ⟨width, hplaces, hlt, hle⟩ := placesWithin_bounds (Nat.le_refl n)
  have hfirst : decimal n = lastDigit (n / Nat.pow 10 width) :: padded width n := by
    rw [decimal, places, hplaces, padded_succ]
  refine ⟨_, _, hfirst, ?_, isDigit_lastDigit _⟩
  have hpow : Nat.pow 10 (width + 1) = Nat.pow 10 width * 10 := rfl
  have hlow : Nat.pow 10 width ≤ n := by
    rcases hle with rfl | hle
    · exact Nat.one_le_iff_ne_zero.mpr h
    · exact hle
  have hpositive : 0 < Nat.pow 10 width := Nat.pow_pos (by decide)
  have hdigit : 1 ≤ n / Nat.pow 10 width := (Nat.one_le_div_iff hpositive).mpr hlow
  have hsingle : n / Nat.pow 10 width < 10 := Nat.div_lt_of_lt_mul (by omega)
  intro hzero
  have hcode := congrArg Char.toNat hzero
  rw [toNat_lastDigit] at hcode
  change 48 + _ = 48 at hcode
  omega

/-! ## Taking digits -/

/-- The text does not begin with a digit. -/
def NoDigitFirst (cs : List Char) : Prop := ∀ c ∈ cs.head?, c.isDigit = false

theorem noDigitFirst_cons {c : Char} {cs : List Char} (h : c.isDigit = false) :
    NoDigitFirst (c :: cs) := by
  intro d hd
  cases hd
  exact h

/-- The digits taken are all that were written, because there may be no more of them or because
there are none behind them. -/
theorem takeDigits_append {ds rest : List Char} (digits : ∀ c ∈ ds, c.isDigit = true) :
    ∀ {most : Nat}, ds.length ≤ most → (ds.length = most ∨ NoDigitFirst rest) →
      takeDigits most (ds ++ rest) = (ds, rest) := by
  induction ds with
  | nil =>
    intro most _ hstop
    cases most with
    | zero => cases rest <;> rfl
    | succ most =>
      cases rest with
      | nil => rfl
      | cons c cs =>
        -- More digits could be taken here, so it must be `rest` that stops the reader.
        have hc : c.isDigit = false := by
          rcases hstop with hlength | hnone
          · cases hlength
          · exact hnone c rfl
        rw [List.nil_append, takeDigits, if_neg (by simp [hc])]
  | cons d ds ih =>
    intro most hmost hstop
    cases most with
    | zero => cases hmost
    | succ most =>
      have hrest := ih (fun c hc => digits c (.tail _ hc)) (Nat.le_of_succ_le_succ hmost)
        (hstop.imp_left Nat.succ.inj)
      rw [List.cons_append, takeDigits, if_pos (digits d (.head _)), hrest]

theorem number?_append {ds rest : List Char} {least most : Nat}
    (digits : ∀ c ∈ ds, c.isDigit = true)
    (hleast : least ≤ ds.length) (hmost : ds.length ≤ most)
    (hstop : ds.length = most ∨ NoDigitFirst rest) :
    number? least most (ds ++ rest) = some (valueOf ds, rest) := by
  rw [number?, takeDigits_append digits hmost hstop]
  exact if_neg (Nat.not_lt.mpr hleast)

/-- A number with a fixed number of places is read by a reader that takes so many. -/
theorem number?_padded {width least n : Nat} (hn : n < Nat.pow 10 width) (hleast : least ≤ width)
    (rest : List Char) : number? least width (padded width n ++ rest) = some (n, rest) := by
  have hlength := length_padded width n
  rw [number?_append (fun c => isDigit_of_mem_padded) (by omega) (by omega) (.inl hlength),
    valueOf_padded hn]

/-- A mark is taken off a text that begins with it. -/
theorem after?_cons (c : Char) (cs : List Char) : after? c (c :: cs) = some cs := if_pos rfl

/-- A number with as many places as it needs is read if no digit follows. -/
theorem number?_paddedAtLeast {width most n : Nat} {rest : List Char}
    (hmost : (paddedAtLeast width n).length ≤ most) (hrest : NoDigitFirst rest) :
    number? 1 most (paddedAtLeast width n ++ rest) = some (n, rest) := by
  have hvalue : valueOf (paddedAtLeast width n) = n :=
    valueOf_padded (lt_pow_of_places_le (Nat.le_max_right width (places n)))
  have hplaces : 1 ≤ places n := by
    obtain ⟨width, hplaces, _⟩ := placesWithin_bounds (Nat.le_refl n)
    rw [places, hplaces]
    exact Nat.le_add_left 1 width
  have hleast : 1 ≤ (paddedAtLeast width n).length := by
    rw [paddedAtLeast, length_padded]
    exact Nat.le_trans hplaces (Nat.le_max_right width (places n))
  have hdigits : ∀ c ∈ paddedAtLeast width n, c.isDigit = true :=
    fun _ hc => isDigit_of_mem_padded hc
  rw [number?_append hdigits hleast hmost (.inr hrest), hvalue]

end DocSearch.Text
