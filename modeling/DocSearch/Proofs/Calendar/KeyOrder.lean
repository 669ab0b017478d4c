import DocSearch.Proofs.Calendar.TimeOrder
import DocSearch.Proofs.Text.LowerCase
import DocSearch.Proofs.Text.TextOrder

/-!
# The order of written days

The index compares keys as texts, while what is asked for is an order of days.  Where the two agree,
and what happens where they do not, is said here.

* Numbers with the same number of places are ordered as their texts (`Text.padded_lt_padded_iff`),
  and what follows them decides between equal ones (`Text.padded_append_lt_iff`).
* So, within the years that have four places, the keys of days are ordered as the days
  (`Day.key_lt_key_iff`, `Day.key_le_key_iff`).
* The keys of all other years come before these (`Day.key_lt_key_of_not`), because their sign comes
  before the digits; so none of them lies between two of these (`Day.key_between_iff`).
* A text that begins with a year and a dash lies behind the keys of all earlier years and before
  those of its own year and later ones (`Day.BeginsDashed.key_lt_iff`,
  `Day.BeginsDashed.lt_key_iff`), because a dash comes before the digits.
-/

namespace DocSearch

namespace Text

/-! ## Numbers -/

/-- A padded number has `width` places. -/
theorem length_padded : ∀ width n : Nat, (padded width n).length = width
  | 0, _ => rfl
  | width + 1, n => by rw [padded, List.length_append, length_padded width, List.length_singleton]

/-- Texts `p` and `q` of one length in front decide the order, unless they are the same. -/
theorem append_lt_append_iff_of_length_eq {x y : List Char} : ∀ {p q : List Char},
    p.length = q.length →
    (p ++ x < q ++ y ↔ p < q ∨ (p = q ∧ x < y))
  | [], [], _ => by simp
  | c :: p, d :: q, h => by
    have ih := append_lt_append_iff_of_length_eq (x := x) (y := y) (Nat.succ.inj h)
    simp only [List.cons_append, List.cons_lt_cons_iff, ih, List.cons.injEq, and_or_left, or_assoc,
      and_assoc]

/-- The code point of `lastDigit`: digits follow each other from `48` on. -/
theorem toNat_lastDigit (n : Nat) : (lastDigit n).toNat = 48 + n % 10 := by
  have hdigit : ∀ d < 10, (Char.ofNat (48 + d)).toNat = 48 + d := by decide
  exact hdigit (n % 10) (Nat.mod_lt n (by decide))

/-- Digits are ordered as the last places of the numbers. -/
theorem lastDigit_lt_lastDigit_iff {m n : Nat} : lastDigit m < lastDigit n ↔ m % 10 < n % 10 := by
  rw [Char.lt_def, UInt32.lt_iff_toNat_lt]
  change (lastDigit m).toNat < (lastDigit n).toNat ↔ _
  rw [toNat_lastDigit, toNat_lastDigit]
  omega

/-- Numbers with one `lastDigit` agree in the last place. -/
theorem lastDigit_inj {m n : Nat} (h : lastDigit m = lastDigit n) : m % 10 = n % 10 := by
  have hcode := congrArg Char.toNat h
  rw [toNat_lastDigit, toNat_lastDigit] at hcode
  omega

/-- Numbers with enough places are told apart by their texts. -/
theorem padded_inj : ∀ {width m n : Nat}, m < Nat.pow 10 width → n < Nat.pow 10 width →
    padded width m = padded width n → m = n
  | 0, m, n, hm, hn, _ => by
    have hm : m < 1 := hm
    have hn : n < 1 := hn
    omega
  | width + 1, m, n, hm, hn, h => by
    have hm : m < Nat.pow 10 width * 10 := hm
    have hn : n < Nat.pow 10 width * 10 := hn
    obtain ⟨hfront, hlast⟩ := List.append_inj h (by rw [length_padded, length_padded])
    have hdiv : m / 10 = n / 10 := padded_inj (by omega) (by omega) hfront
    have hmod := lastDigit_inj (List.singleton_inj.mp hlast)
    omega

/-- Numbers with enough places are ordered as their texts, by induction on `width`. -/
theorem padded_lt_padded_iff : ∀ {width m n : Nat}, m < Nat.pow 10 width → n < Nat.pow 10 width →
    (padded width m < padded width n ↔ m < n)
  | 0, m, n, hm, hn => by
    have hm : m < 1 := hm
    have hn : n < 1 := hn
    simp [padded]
    omega
  | width + 1, m, n, hm, hn => by
    have hm : m < Nat.pow 10 width * 10 := hm
    have hn : n < Nat.pow 10 width * 10 := hn
    have ih : padded width (m / 10) < padded width (n / 10) ↔ m / 10 < n / 10 :=
      padded_lt_padded_iff (by omega) (by omega)
    have hinj : padded width (m / 10) = padded width (n / 10) ↔ m / 10 = n / 10 :=
      ⟨padded_inj (by omega) (by omega), congrArg _⟩
    rw [padded, padded, append_lt_append_iff_of_length_eq (by rw [length_padded, length_padded]),
      ih, hinj, List.cons_lt_cons_iff, lastDigit_lt_lastDigit_iff]
    simp only [List.not_lt_nil, and_false, or_false]
    omega

/-- Two texts that begin with numbers of as many places are ordered by the numbers, unless these are
the same. -/
theorem padded_append_lt_iff {width m n : Nat} (hm : m < Nat.pow 10 width)
    (hn : n < Nat.pow 10 width)
    {x y : List Char} : padded width m ++ x < padded width n ++ y ↔ m < n ∨ (m = n ∧ x < y) := by
  have hinj : padded width m = padded width n ↔ m = n := ⟨padded_inj hm hn, congrArg _⟩
  rw [append_lt_append_iff_of_length_eq (by rw [length_padded, length_padded]),
    padded_lt_padded_iff hm hn, hinj]

/-- What comes before the digits comes before any number. -/
theorem cons_lt_padded {c : Char} (hc : c.toNat < '0'.toNat) (x y : List Char) :
    ∀ width n : Nat, c :: x < padded (width + 1) n ++ y
  | 0, n => by
    rw [padded, padded, List.nil_append, List.cons_append, List.cons_lt_cons_iff, Char.lt_def,
      UInt32.lt_iff_toNat_lt]
    left
    change c.toNat < (lastDigit n).toNat
    rw [toNat_lastDigit]
    exact Nat.lt_of_lt_of_le hc (Nat.le_add_right 48 _)
  | width + 1, n => by
    rw [padded, List.append_assoc]
    exact cons_lt_padded hc x _ width (n / 10)

/-- A dash comes before any digit. -/
theorem dash_lt_padded (x y : List Char) (width n : Nat) : '-' :: x < padded (width + 1) n ++ y :=
  cons_lt_padded (by decide) x y width n

/-- The characters of a number are below the capitals, so lower case leaves them. -/
theorem lt_of_mem_padded {c : Char} : ∀ {width n : Nat}, c ∈ padded width n → c.toNat < 'A'.toNat
  | width + 1, n, h => by
    rw [padded, List.mem_append, List.mem_singleton] at h
    rcases h with h | rfl
    · exact lt_of_mem_padded h
    · rw [toNat_lastDigit]
      change 48 + n % 10 < 65
      omega

end Text

/-! ## Days -/

namespace Day

/-- The year of the day `d` has four places: it is one of the years `0` to `9999`. -/
def HasFourPlaceYear (d : Day) : Prop := 0 ≤ d.year ∧ d.year ≤ 9999

instance (d : Day) : Decidable d.HasFourPlaceYear := inferInstanceAs (Decidable (_ ∧ _))

/-- A month has two places. -/
theorem month_lt (d : Day) : d.month < Nat.pow 10 2 := by
  have hdate := d.exists_date
  simp only [Calendar.isDate, Bool.and_eq_true, decide_eq_true_eq] at hdate
  change d.month < 100
  omega

/-- A day of a month has two places. -/
theorem day_lt (d : Day) : d.day < Nat.pow 10 2 := by
  have hdate := d.exists_date
  simp only [Calendar.isDate, Bool.and_eq_true, decide_eq_true_eq] at hdate
  have hlength : Calendar.monthLength d.year d.month ≤ 31 := by
    unfold Calendar.monthLength
    split
    · split <;> omega
    all_goals omega
  change d.day < 100
  omega

/-- The characters of a year, its sign included, are below the capitals. -/
theorem lt_of_mem_yearText {c : Char} {year : Int} (h : c ∈ yearText year) :
    c.toNat < 'A'.toNat := by
  unfold yearText at h
  split at h
  · rcases List.mem_cons.mp h with rfl | h
    · decide
    · exact Text.lt_of_mem_padded h
  · split at h
    · exact Text.lt_of_mem_padded h
    · rcases List.mem_cons.mp h with rfl | h
      · decide
      · exact Text.lt_of_mem_padded h

/-- The key of a day is its own lower case. -/
theorem fold_key (d : Day) : Text.fold d.key = d.key := by
  have hchars : ∀ c ∈ d.keyChars, c.toNat < 'A'.toNat := by
    intro c hc
    rw [keyChars, List.mem_append, List.mem_append] at hc
    rcases hc with (hc | hc) | hc
    · exact lt_of_mem_yearText hc
    · exact Text.lt_of_mem_padded hc
    · exact Text.lt_of_mem_padded hc
  rw [Text.fold, toList_key, Text.lowerEach_of_lt hchars, key]

/-- The text `s` begins with the year of the day and a dash, as days with dashes and timestamps
do. -/
def BeginsDashed (d : Day) (s : String) : Prop := ∃ rest, s.toList = yearText d.year ++ '-' :: rest

/-- Lower case leaves the year and the dash. -/
theorem BeginsDashed.fold {d : Day} {s : String} :
    d.BeginsDashed s → d.BeginsDashed (Text.fold s) := by
  rintro ⟨rest, hs⟩
  have hyear : Text.lowerEach (yearText d.year) = yearText d.year :=
    Text.lowerEach_of_lt fun c hc => lt_of_mem_yearText hc
  have hdash : '-'.toNat < 'A'.toNat := by decide
  refine ⟨Text.lowerEach rest, ?_⟩
  rw [Text.toList_fold, hs, Text.lowerEach_append, hyear, Text.lowerEach_cons_of_lt hdash]

section

variable {a b : Day}

/-- A year with `HasFourPlaceYear` is a number of four places. -/
theorem natAbs_year_lt (ha : a.HasFourPlaceYear) : a.year.natAbs < Nat.pow 10 4 := by
  obtain ⟨hlow, hhigh⟩ := ha
  change a.year.natAbs < 10000
  omega

/-- A year with `HasFourPlaceYear` is written as this number, without a sign. -/
theorem yearText_eq (ha : a.HasFourPlaceYear) : yearText a.year = Text.padded 4 a.year.natAbs := by
  obtain ⟨hlow, hhigh⟩ := ha
  rw [yearText, if_neg (by omega), if_pos hhigh]

/-- The keys of days are ordered as the days: year, month and day are compared one after the other,
as in `Day.lt_iff`. -/
theorem key_lt_key_iff (ha : a.HasFourPlaceYear) (hb : b.HasFourPlaceYear) :
    a.key < b.key ↔ a < b := by
  rw [Text.lt_iff_toList_lt, toList_key, toList_key, keyChars, keyChars, yearText_eq ha,
    yearText_eq hb, List.append_assoc, List.append_assoc,
    Text.padded_append_lt_iff (natAbs_year_lt ha) (natAbs_year_lt hb),
    Text.padded_append_lt_iff a.month_lt b.month_lt, Text.padded_lt_padded_iff a.day_lt b.day_lt,
    lt_iff]
  obtain ⟨hlow, _⟩ := ha
  obtain ⟨hlow', _⟩ := hb
  omega

/-- The keys of days are ordered as the days, for `≤`. -/
theorem key_le_key_iff (ha : a.HasFourPlaceYear) (hb : b.HasFourPlaceYear) :
    a.key ≤ b.key ↔ a ≤ b := by
  rw [← String.not_lt, key_lt_key_iff hb ha, le_iff]

/-- A year that has not four places is written behind a sign, which comes before the digits. -/
theorem exists_yearText_eq_cons (hb : ¬ b.HasFourPlaceYear) :
    ∃ sign cs, yearText b.year = sign :: cs ∧ sign.toNat < '0'.toNat := by
  unfold yearText
  split
  · exact ⟨'-', _, rfl, by decide⟩
  · rename_i hlow
    have hhigh : ¬ b.year ≤ 9999 := fun hle => hb ⟨Int.not_lt.mp hlow, hle⟩
    rw [if_neg hhigh]
    exact ⟨'+', _, rfl, by decide⟩

/-- The keys of all other years come before those of the years with four places. -/
theorem key_lt_key_of_not (ha : a.HasFourPlaceYear) (hb : ¬ b.HasFourPlaceYear) :
    b.key < a.key := by
  obtain ⟨sign, cs, hyear, hsign⟩ := exists_yearText_eq_cons hb
  rw [Text.lt_iff_toList_lt, toList_key, toList_key, keyChars, keyChars, hyear, yearText_eq ha,
    List.append_assoc, List.append_assoc]
  exact Text.cons_lt_padded hsign _ _ 3 _

/-- The key of `day`, of whatever year, lies between those of two days with four-place years iff the
day lies between the days. -/
theorem key_between_iff {first last : Day} (hfirst : first.HasFourPlaceYear)
    (hlast : last.HasFourPlaceYear)
    (day : Day) : (first.key ≤ day.key ∧ day.key ≤ last.key) ↔ first ≤ day ∧ day ≤ last := by
  by_cases hplaces : day.HasFourPlaceYear
  · exact and_congr (key_le_key_iff hfirst hplaces) (key_le_key_iff hplaces hlast)
  · -- The day of a later year comes before the range by its key, and lies behind it as a day.
    refine iff_of_false (fun hkey => String.not_lt.mpr hkey.1 (key_lt_key_of_not hfirst hplaces)) ?_
    simp only [le_iff, lt_iff]
    simp only [HasFourPlaceYear] at hfirst hlast hplaces
    omega

variable {s : String}

/-- A dashed text comes before the keys of its own year and of later ones. -/
theorem BeginsDashed.lt_key_iff (hs : b.BeginsDashed s) (ha : a.HasFourPlaceYear)
    (hb : b.HasFourPlaceYear) :
    s < a.key ↔ b.year ≤ a.year := by
  obtain ⟨rest, hs⟩ := hs
  rw [Text.lt_iff_toList_lt, toList_key, hs, keyChars, yearText_eq ha, yearText_eq hb,
    List.append_assoc, Text.padded_append_lt_iff (natAbs_year_lt hb) (natAbs_year_lt ha)]
  simp only [Text.dash_lt_padded, and_true]
  obtain ⟨hlow, _⟩ := ha
  obtain ⟨hlow', _⟩ := hb
  omega

/-- A dashed text lies behind the keys of earlier years. -/
theorem BeginsDashed.key_lt_iff (hs : b.BeginsDashed s) (ha : a.HasFourPlaceYear)
    (hb : b.HasFourPlaceYear) :
    a.key < s ↔ a.year < b.year := by
  obtain ⟨rest, hs⟩ := hs
  rw [Text.lt_iff_toList_lt, toList_key, hs, keyChars, yearText_eq ha, yearText_eq hb,
    List.append_assoc, Text.padded_append_lt_iff (natAbs_year_lt ha) (natAbs_year_lt hb)]
  simp only [List.lt_asymm (Text.dash_lt_padded _ _ _ _), and_false, or_false]
  obtain ⟨hlow, _⟩ := ha
  obtain ⟨hlow', _⟩ := hb
  omega

end

end Day

end DocSearch
