import SingleTable.Proofs.Number.Rounding

/-! # Shortest decimals

The search for the shortest decimal of a double ends at the latest on the grid of `10⁻¹⁰⁷⁴`, on which
the double itself lies. Whatever grid it ends on, what it finds lies in the interval of the double.

* `Decimal.Within`: a decimal in an interval.
* `Decimal.onGrid_search`: the search finds a point of a grid.
* `Decimal.within_shortest`: the shortest decimal of a double lies in its interval.
-/

namespace SingleTable.Decimal
open Double

variable {tie : Tie} {i : Interval} {d : Decimal} {k : Nat}

/-! ## Decimals in an interval -/

def Within (i : Interval) (d : Decimal) : Prop :=
  i.contains (d.digits * (2 * one * 10 ^ d.exponent.toNat)) (10 ^ (-d.exponent).toNat) = true

theorem contains_mul (i : Interval) {c : Nat} (hc : 0 < c) (num den : Nat) :
    i.contains (num * c) (den * c) = i.contains num den := by
  unfold Interval.contains
  simp only [← Nat.mul_assoc, Nat.mul_le_mul_right_iff hc, Nat.mul_lt_mul_right hc]

/-- Zeros at the end of the digits may stand in the exponent instead. -/
theorem within_shift (i : Interval) (digits n : Nat) (e : Int) :
    Within i ⟨digits * 10 ^ n, e⟩ ↔ Within i ⟨digits, e + n⟩ := by
  obtain ⟨c, hden, hnum⟩ : ∃ c, (-e).toNat = (-(e + n)).toNat + c ∧
      n + e.toNat = (e + n).toNat + c := ⟨(-e).toNat - (-(e + n)).toNat, by omega, by omega⟩
  have hdigits : digits * 10 ^ n * (2 * one * 10 ^ e.toNat) =
      digits * (2 * one * 10 ^ (e + n).toNat) * 10 ^ c := by
    calc digits * 10 ^ n * (2 * one * 10 ^ e.toNat)
        = digits * (2 * one * 10 ^ (n + e.toNat)) := by rw [Nat.pow_add]; ring
      _ = digits * (2 * one * 10 ^ (e + n).toNat) * 10 ^ c := by rw [hnum, Nat.pow_add]; ring
  unfold Within
  dsimp only
  rw [hdigits, hden, Nat.pow_add, contains_mul _ (Nat.pow_pos (by decide))]

theorem within_normalize (n : Nat) : Within i (normalize n d) ↔ Within i d := by
  induction n generalizing d with
  | zero => rfl
  | succ n ih =>
    unfold normalize
    split
    · rename_i hzero
      rw [Bool.and_eq_true, bne_iff_ne, beq_iff_eq] at hzero
      have hdigits : d.digits / 10 * 10 ^ 1 = d.digits := by omega
      have hshift := within_shift i (d.digits / 10) 1 d.exponent
      rw [hdigits] at hshift
      rw [ih]
      exact hshift.symm
    · rfl

/-! ## The search -/

theorem nearer_eq (tie : Tie) (i : Interval) (num den n : Nat) :
    nearer tie i num den n = n ∨ nearer tie i num den n = n + 1 := by
  unfold nearer
  dsimp only
  cases tie <;> split_ifs <;> simp

theorem within_of_onGrid {e : Int} {n : Nat} (h : onGrid tie i e = some n) : Within i ⟨n, e⟩ := by
  unfold onGrid at h
  simp only [Nat.pow_eq] at h
  unfold Within
  dsimp only
  generalize 2 * one * 10 ^ e.toNat = num at h ⊢
  generalize 10 ^ (-e).toNat = den at h ⊢
  generalize i.middle * den / num = q at h
  split at h
  · rename_i hlow hhigh
    rw [← Option.some.inj h]
    rcases nearer_eq tie i num den q with hq | hq
    · rwa [hq]
    · rwa [hq]
  · rename_i hlow _
    rwa [← Option.some.inj h]
  · rename_i _ hhigh
    rwa [← Option.some.inj h]
  · cases h

/-- The search ends on a grid with a point, if it comes to one. -/
theorem onGrid_search {n m : Nat} {e : Int} (hm : m < n) (h : onGrid tie i (e - m) ≠ none) :
    onGrid tie i (search tie i n e).exponent = some (search tie i n e).digits := by
  induction n generalizing m e with
  | zero => omega
  | succ n ih =>
    unfold search
    split
    · assumption
    · rename_i hnone
      cases m with
      | zero => exact absurd (by simpa using hnone) h
      | succ m =>
        have hnext : e - 1 - (m : Int) = e - ((m + 1 : Nat) : Int) := by omega
        exact ih (Nat.lt_of_succ_lt_succ hm) (by rwa [hnext])

theorem one_dvd_pow {n : Nat} (h : 1074 ≤ n) : one ∣ 10 ^ n := by
  obtain ⟨e, he, hone⟩ := exists_one_eq
  rw [hone]
  exact (Nat.pow_dvd_pow 2 (he.trans h)).trans (pow_dvd_pow_of_dvd (by decide) n)

theorem interval_lt (hk : 0 < k) : 0 < (interval k).low ∧ (interval k).low < (interval k).middle ∧
    (interval k).middle < (interval k).high := by
  have hbelow := units_strictMono (Nat.sub_one_lt hk.ne')
  have habove := units_lt_succ k
  have hpos := units_pos hk
  unfold interval
  dsimp only
  omega

/-- Every double lies on the grid of `10⁻¹⁰⁷⁴`, and on all finer ones. -/
theorem onGrid_ne_none (tie : Tie) (hk : 0 < k) {e : Int} (he : e ≤ -1074) :
    onGrid tie (interval k) e ≠ none := by
  obtain ⟨c, hc⟩ := one_dvd_pow (n := (-e).toNat) (by omega)
  have hcpos : 0 < 10 ^ (-e).toNat := Nat.pow_pos (by decide)
  have hzero : e.toNat = 0 := by omega
  have hpoint : (interval k).middle * 10 ^ (-e).toNat = units k * c * (2 * one * 10 ^ e.toNat) := by
    rw [hc, hzero]
    unfold interval
    ring
  have hstep : 0 < 2 * one * 10 ^ e.toNat :=
    Nat.mul_pos (Nat.mul_pos (by decide) Double.one_pos) (Nat.pow_pos (by decide))
  obtain ⟨-, hlow, hhigh⟩ := interval_lt hk
  have hin : (interval k).contains ((interval k).middle * 10 ^ (-e).toNat) (10 ^ (-e).toNat) = true := by
    have hlow' := Nat.mul_lt_mul_of_pos_right hlow hcpos
    have hhigh' := Nat.mul_lt_mul_of_pos_right hhigh hcpos
    unfold Interval.contains
    split
    · simp [hlow'.le, hhigh'.le]
    · simp [hlow', hhigh']
  unfold onGrid
  simp only [Nat.pow_eq]
  generalize 2 * one * 10 ^ e.toNat = num at hpoint hstep ⊢
  generalize 10 ^ (-e).toNat = den at hpoint hin ⊢
  rw [hpoint] at hin
  rw [hpoint, Nat.mul_div_cancel _ hstep, hin]
  split <;> simp_all

/-- The shortest decimal of a double lies in its interval. -/
theorem within_shortest (tie : Tie) (hk : 0 < k) : Within (interval k) (shortest tie k) := by
  have hstart : -1074 ≤ startExponent k := by
    unfold startExponent
    omega
  have hfine : startExponent k - ((startExponent k + 1074).toNat : Int) ≤ -1074 := by omega
  unfold shortest
  rw [if_neg (by simpa using hk.ne')]
  dsimp only
  rw [within_normalize]
  exact within_of_onGrid (onGrid_search (by omega) (onGrid_ne_none tie hk hfine))

end SingleTable.Decimal
