import Mathlib.Algebra.Order.Field.Rat
import SingleTable.Proofs.Number.Size

/-! # The order of numbers

Integers and doubles are ordered as the rational numbers that they are. Numbers are compared as the
doubles nearest to them, which never turns this order around: it can only make two of them equal.

* `Double.signedUnits`, `Number.units`: a number as a multiple of the unit.
* `Number.IsFinite`: integers, and doubles that are rational numbers.
* `Number.position_toDouble`: the nearest double stands where the units of a number place it.
* `Number.toRat_lt_of_position_lt`: what the nearest doubles tell apart is ordered as they are;
  `toRat_eq_of_position_eq`: they tell apart numbers that are doubles themselves.
-/

namespace SingleTable

namespace Double

def signedUnits (x : Double) : ℤ := if x.isNegative then -(units x.rank : ℤ) else units x.rank

theorem toRat_eq_signedUnits (x : Double) : x.toRat = x.signedUnits / one := rfl

theorem isNaN_of_isFinite {x : Double} (h : x.isFinite = true) : x.isNaN = false := by
  have hrank : x.rank < infiniteRank := of_decide_eq_true h
  exact decide_eq_false (by omega)

theorem position_eq_of_compare?_eq {x y : Double} (h : x.compare? y = some .eq) :
    x.position = y.position := by
  unfold compare? at h
  split at h
  · cases h
  · exact Int.compare_eq_eq.mp (Option.some.inj h)

theorem rankOfRatio_units {k : Nat} (h : k < infiniteRank) : rankOfRatio (units k) 1 = k := by
  rw [rankOfRatio_one, rankOfUnits_units, min_eq_left h.le]

theorem units_zero : units 0 = 0 := by decide

theorem units_pos {k : Nat} (h : 0 < k) : 0 < units k := by
  have hlt := units_strictMono h
  rwa [units_zero] at hlt

/-- A finite double stands where its units place it; those of the two zeros are the same. -/
theorem position_eq_placeOfUnits {x : Double} (h : x.isFinite = true) :
    x.position = placeOfUnits x.signedUnits := by
  have hrank : x.rank < infiniteRank := of_decide_eq_true h
  have hround := rankOfRatio_units hrank
  unfold position signedUnits placeOfUnits
  cases x.isNegative with
  | false =>
    have hle : ¬ ((units x.rank : ℤ) < 0) := by omega
    rw [if_neg Bool.false_ne_true, if_neg Bool.false_ne_true, if_neg hle, Int.natAbs_natCast, hround]
  | true =>
    rw [if_pos rfl, if_pos rfl, Int.natAbs_neg, Int.natAbs_natCast, hround]
    rcases Nat.eq_zero_or_pos x.rank with hzero | hpos
    · rw [hzero]
      simp
    · have hneg : -(units x.rank : ℤ) < 0 := by
        have := units_pos hpos
        omega
      rw [if_pos hneg]

theorem rank_eq_of_position_eq {x y : Double} (h : x.position = y.position) :
    x.rank = 0 ∧ y.rank = 0 ∨ x.rank = y.rank ∧ x.isNegative = y.isNegative := by
  unfold position at h
  cases hx : x.isNegative <;> cases hy : y.isNegative <;>
    simp only [hx, hy, Bool.false_eq_true, if_true, if_false] at h
  · exact .inr ⟨by omega, rfl⟩
  · exact .inl ⟨by omega, by omega⟩
  · exact .inl ⟨by omega, by omega⟩
  · exact .inr ⟨by omega, rfl⟩

theorem signedUnits_eq_of_position_eq {x y : Double} (h : x.position = y.position) :
    x.signedUnits = y.signedUnits := by
  rcases rank_eq_of_position_eq h with ⟨hx, hy⟩ | ⟨hrank, hsign⟩
  · rw [signedUnits, signedUnits, hx, hy, units_zero]
    simp
  · rw [signedUnits, signedUnits, hrank, hsign]

end Double

namespace Number
open Double

def units : Number → ℤ
  | int n => n * one
  | double x => x.signedUnits

def IsFinite : Number → Prop
  | int _ => True
  | double x => x.isFinite = true

theorem toRat_eq_units (n : Number) : n.toRat = n.units / one := by
  cases n with
  | int n =>
    have hone : (one : ℚ) ≠ 0 := Nat.cast_ne_zero.mpr Double.one_pos.ne'
    rw [units, toRat, Int.cast_mul, Int.cast_natCast, mul_div_cancel_right₀ _ hone]
  | double x => exact x.toRat_eq_signedUnits

theorem toRat_le_iff {m n : Number} : m.toRat ≤ n.toRat ↔ m.units ≤ n.units := by
  have hone : (0 : ℚ) < one := Nat.cast_pos.mpr Double.one_pos
  rw [toRat_eq_units, toRat_eq_units, div_le_div_iff_of_pos_right hone, Int.cast_le]

theorem isNaN_toDouble {n : Number} (h : n.IsFinite) : n.toDouble.isNaN = false := by
  cases n with
  | int n => exact isNaN_ofInt n
  | double x => exact isNaN_of_isFinite h

/-- An integer is rounded, and a finite double is not. -/
theorem position_toDouble {n : Number} (h : n.IsFinite) :
    n.toDouble.position = placeOfUnits n.units := by
  cases n with
  | int n => exact position_ofInt_eq n
  | double x => exact position_eq_placeOfUnits h

variable {m n : Number}

theorem toRat_lt_of_position_lt (hm : m.IsFinite) (hn : n.IsFinite)
    (h : m.toDouble.position < n.toDouble.position) : m.toRat < n.toRat := by
  by_contra hle
  rw [not_lt, toRat_le_iff] at hle
  have hplace := placeOfUnits_mono hle
  rw [← position_toDouble hm, ← position_toDouble hn] at hplace
  omega

/-- A number that is a double: rounding leaves it as it is. -/
def IsExact (n : Number) : Prop := n.toDouble.signedUnits = n.units

theorem isExact_double (x : Double) : (double x).IsExact := rfl

theorem isExact_of_units {n : Int} (h : Double.units (rankOfNat n.natAbs) = n.natAbs * one) :
    (int n).IsExact := by
  change (ofInt n).signedUnits = n * one
  rw [signedUnits, isNegative_ofInt, rank_ofInt, h]
  by_cases hn : n < 0
  · have habs : (n.natAbs : ℤ) = -n := by omega
    rw [decide_eq_true hn, if_pos rfl, Int.natCast_mul, habs, Int.neg_mul, Int.neg_neg]
  · have habs : (n.natAbs : ℤ) = n := by omega
    rw [decide_eq_false hn, if_neg Bool.false_ne_true, Int.natCast_mul, habs]

/-- Integers up to `2⁵³` in size are doubles. -/
theorem isExact_int {n : Int} (h : n.natAbs ≤ 2 ^ 53) : (int n).IsExact :=
  isExact_of_units (units_rankOfNat h)

theorem toRat_eq_of_position_eq (hm : m.IsExact) (hn : n.IsExact)
    (h : m.toDouble.position = n.toDouble.position) : m.toRat = n.toRat := by
  have hunits : m.units = n.units := by
    rw [← hm, ← hn]
    exact signedUnits_eq_of_position_eq h
  rw [toRat_eq_units, toRat_eq_units, hunits]

end Number

end SingleTable
