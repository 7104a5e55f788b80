import Mathlib.Tactic.SplitIfs
import Mathlib.Tactic.Tauto
import SingleTable.Calendar.Date
import SingleTable.Proofs.Text.Digits

/-! # Days in their order

Counting days gives the same order as comparing years, then months, then days of the month; and so
does comparing the written forms as texts, as long as the years have four digits.

* `Date.daysBeforeYear_succ`, `Date.daysBeforeMonth_le`: years and months follow each other without
  a gap, leap years included.
* `Date.compare_dayNumber`: the number of a day tells the order of dates.
* `Date.IsCommon`: dates of the years 0 to 9999; `Date.compare_text`: their texts are in time order.
-/

namespace SingleTable.Calendar.Date

/-! ## Years and months -/

def daysInYear (y : Int) : Nat := if isLeap y then 366 else 365

theorem daysBeforeYear_succ (y : Int) : daysBeforeYear (y + 1) = daysBeforeYear y + daysInYear y := by
  unfold daysBeforeYear daysInYear isLeap
  simp only [Bool.and_eq_true, Bool.or_eq_true, beq_iff_eq, bne_iff_ne]
  split_ifs <;> omega

theorem daysBeforeYear_mono {y z : Int} (h : y ≤ z) : daysBeforeYear y ≤ daysBeforeYear z := by
  unfold daysBeforeYear
  omega

theorem daysBeforeMonth_succ (y : Int) {m : Nat} (hm : 1 ≤ m) :
    daysBeforeMonth y (m + 1) = daysBeforeMonth y m + daysInMonth y m := by
  cases m with
  | zero => omega
  | succ m => rfl

theorem daysBeforeMonth_mono (y : Int) {m n : Nat} (hm : 1 ≤ m) (h : m ≤ n) :
    daysBeforeMonth y m ≤ daysBeforeMonth y n := by
  induction n, h using Nat.le_induction with
  | base => exact Nat.le_refl _
  | succ n hn ih =>
    rw [daysBeforeMonth_succ y (by omega)]
    omega

theorem daysBeforeMonth_end (y : Int) : daysBeforeMonth y 13 = daysInYear y := by
  simp only [daysBeforeMonth, daysInMonth, daysInYear]
  split_ifs <;> rfl

/-! ## The number of a day -/

variable {a b : Date}

/-- A month is over before the next one begins, and the last one before the next year begins. -/
theorem daysBeforeMonth_add_day_le (d : Date) :
    daysBeforeMonth d.year d.month + d.day ≤ daysBeforeMonth d.year (d.month + 1) ∧
      daysBeforeMonth d.year (d.month + 1) ≤ daysInYear d.year := by
  obtain ⟨-, -, hfirst, hlast, -, hday⟩ := d.valid
  rw [← daysBeforeMonth_end]
  refine ⟨?_, daysBeforeMonth_mono d.year (by omega) (by omega)⟩
  rw [daysBeforeMonth_succ d.year hfirst]
  omega

theorem one_le_day (d : Date) : 1 ≤ d.day := d.valid.2.2.2.2.1

theorem dayNumber_lt_of_year_lt (h : a.year < b.year) : a.dayNumber < b.dayNumber := by
  have hnext := daysBeforeYear_succ a.year
  have hmono : daysBeforeYear (a.year + 1) ≤ daysBeforeYear b.year := daysBeforeYear_mono h
  have ha := daysBeforeMonth_add_day_le a
  have hb := one_le_day b
  unfold dayNumber
  omega

theorem dayNumber_lt_of_month_lt (hyear : a.year = b.year) (h : a.month < b.month) :
    a.dayNumber < b.dayNumber := by
  have ha := (daysBeforeMonth_add_day_le a).1
  have hmono := daysBeforeMonth_mono a.year (m := a.month + 1) (by omega) h
  have hb := one_le_day b
  unfold dayNumber
  rw [← hyear]
  omega

theorem dayNumber_lt_of_day_lt (hyear : a.year = b.year) (hmonth : a.month = b.month)
    (h : a.day < b.day) : a.dayNumber < b.dayNumber := by
  unfold dayNumber
  rw [← hyear, ← hmonth]
  omega

theorem compare_eq_lt_iff : a.compare b = .lt ↔ a.year < b.year ∨ a.year = b.year ∧
    (a.month < b.month ∨ a.month = b.month ∧ a.day < b.day) := by
  rw [compare, Ordering.then_eq_lt, Ordering.then_eq_lt, Ordering.then_eq_eq, Int.compare_eq_lt,
    Int.compare_eq_eq, Nat.compare_eq_lt, Nat.compare_eq_eq, Nat.compare_eq_lt]
  tauto

theorem compare_eq_eq_iff : a.compare b = .eq ↔ a = b := by
  rw [compare, Ordering.then_eq_eq, Ordering.then_eq_eq, Int.compare_eq_eq, Nat.compare_eq_eq,
    Nat.compare_eq_eq]
  constructor
  · rintro ⟨⟨hyear, hmonth⟩, hday⟩
    cases a
    cases b
    cases hyear
    cases hmonth
    cases hday
    rfl
  · rintro rfl
    exact ⟨⟨rfl, rfl⟩, rfl⟩

theorem compare_swap (a b : Date) : b.compare a = (a.compare b).swap := by
  rw [compare, compare, Ordering.swap_then, Ordering.swap_then, Int.compare_swap, Nat.compare_swap,
    Nat.compare_swap]

theorem dayNumber_lt_of_compare (h : a.compare b = .lt) : a.dayNumber < b.dayNumber := by
  rcases compare_eq_lt_iff.mp h with hyear | ⟨hyear, hmonth | ⟨hmonth, hday⟩⟩
  · exact dayNumber_lt_of_year_lt hyear
  · exact dayNumber_lt_of_month_lt hyear hmonth
  · exact dayNumber_lt_of_day_lt hyear hmonth hday

/-- **Dates are in the order of their day numbers.** -/
theorem compare_dayNumber (a b : Date) : Ord.compare a.dayNumber b.dayNumber = a.compare b := by
  cases h : a.compare b with
  | lt => exact Int.compare_eq_lt.mpr (dayNumber_lt_of_compare h)
  | eq =>
    rw [compare_eq_eq_iff.mp h]
    exact Int.compare_eq_eq.mpr rfl
  | gt =>
    have hswap : b.compare a = .lt := by rw [compare_swap, h]; rfl
    exact Int.compare_eq_gt.mpr (dayNumber_lt_of_compare hswap)

/-! ## Written days -/

/-- A date whose year is written with four digits. -/
def IsCommon (d : Date) : Prop := 0 ≤ d.year ∧ d.year ≤ 9999

instance (d : Date) : Decidable d.IsCommon := inferInstanceAs (Decidable (_ ∧ _))

theorem yearChars_of_isCommon {d : Date} (h : d.IsCommon) :
    yearChars d.year = Text.fixed 4 d.year.natAbs := by
  have hrange : (decide (0 ≤ d.year) && decide (d.year ≤ 9999)) = true := by
    rw [Bool.and_eq_true, decide_eq_true_iff, decide_eq_true_iff]
    exact h
  rw [yearChars, if_pos hrange]

theorem natAbs_year_lt {d : Date} (h : d.IsCommon) : d.year.natAbs < 10 ^ 4 := by
  obtain ⟨hlow, hhigh⟩ := h
  omega

theorem month_lt (d : Date) : d.month < 100 := by
  obtain ⟨-, -, -, h, -⟩ := d.valid
  omega

theorem daysInMonth_le (y : Int) (m : Nat) : daysInMonth y m ≤ 31 := by
  unfold daysInMonth
  split
  · split_ifs <;> omega
  · omega
  · omega
  · omega
  · omega
  · omega

theorem day_lt (d : Date) : d.day < 100 := by
  obtain ⟨-, -, -, -, -, h⟩ := d.valid
  have hle := daysInMonth_le d.year d.month
  omega

theorem compare_natAbs {y z : Int} (hy : 0 ≤ y) (hz : 0 ≤ z) :
    Ord.compare y.natAbs z.natAbs = Ord.compare y z := by
  obtain ⟨m, rfl⟩ := Int.eq_ofNat_of_zero_le hy
  obtain ⟨n, rfl⟩ := Int.eq_ofNat_of_zero_le hz
  simp only [Int.natAbs_natCast, Nat.compare_eq_ite_lt, Int.compare_eq_ite_lt, Int.ofNat_lt]

open Text in
/-- **The texts of dates with four digits for the year are in time order.** -/
theorem compare_text (ha : a.IsCommon) (hb : b.IsCommon) :
    Text.compare a.text b.text = a.compare b := by
  have hyear : compareChars (yearChars a.year) (yearChars b.year) = Ord.compare a.year b.year := by
    rw [yearChars_of_isCommon ha, yearChars_of_isCommon hb,
      compareChars_fixed (natAbs_year_lt ha) (natAbs_year_lt hb), compare_natAbs ha.1 hb.1]
  have hmonth := compareChars_fixed (w := 2) (month_lt a) (month_lt b)
  have hday := compareChars_fixed (w := 2) (day_lt a) (day_lt b)
  have hlength : (yearChars a.year).length = (yearChars b.year).length := by
    rw [yearChars_of_isCommon ha, yearChars_of_isCommon hb, length_fixed, length_fixed]
  have hdash : ∀ cs ds : List Char, compareChars ('-' :: cs) ('-' :: ds) = compareChars cs ds :=
    fun cs ds => rfl
  rw [Text.compare, text, text, String.toList_ofList, String.toList_ofList, chars, chars,
    compareChars_append (by simp [hlength]), compareChars_append hlength, hdash, hdash, hyear, hmonth,
    hday]
  rfl

end SingleTable.Calendar.Date
