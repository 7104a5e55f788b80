import Mathlib.Algebra.Order.Floor.Semifield
import Mathlib.Data.Rat.Cast.Defs
import Mathlib.Data.Rat.Floor
import Mathlib.Order.Monotone.Basic
import Mathlib.Tactic.FieldSimp
import Mathlib.Tactic.SplitIfs
import SingleTable.Json.Basic

/-! # The size of doubles

Doubles of one sign lie on grids: the multiples of `2ˢ` units from `2⁵²` to `2⁵³` of them, one grid
for each step `s`, and the first grid down to zero.

* `Double.units_grid`: the size of a double by its place on a grid; `units_strictMono`.
* `Double.units_rankOfUnits`: a number of units is rounded to a multiple of the step of its grid.
* `Double.position_ofInt_mono`: rounding keeps the order of all integers; `ofInt_injective_below`:
  it tells every integer below `2⁵³` from all others.
* `Double.toRat`, `Number.toRat`: the rational number that a double or a number is.
-/

namespace SingleTable

namespace Double

/-! ## Grids -/

/-- The size of the `m`-th point of the grid with step `2 ^ s`. -/
theorem units_grid {s m : Nat} (hs : s = 0 ∨ 2 ^ 52 ≤ m) (hm : m ≤ 2 ^ 53) :
    units (s * 2 ^ 52 + m) = m * 2 ^ s := by
  unfold units significand scale
  simp only [Nat.pow_eq]
  by_cases hlow : s * 2 ^ 52 + m < 2 ^ 52
  · obtain rfl : s = 0 := by omega
    have hscale : (0 * 2 ^ 52 + m) / 2 ^ 52 - 1 = 0 := by omega
    rw [if_pos hlow, hscale, Nat.zero_mul, Nat.zero_add]
  · rw [if_neg hlow]
    by_cases htop : m = 2 ^ 53
    · have hscale : (s * 2 ^ 52 + m) / 2 ^ 52 - 1 = s + 1 := by omega
      have hrest : (s * 2 ^ 52 + m) % 2 ^ 52 = 0 := by omega
      rw [hscale, hrest, htop, Nat.pow_succ]
      omega
    · have hscale : (s * 2 ^ 52 + m) / 2 ^ 52 - 1 = s := by omega
      have hrest : 2 ^ 52 + (s * 2 ^ 52 + m) % 2 ^ 52 = m := by omega
      rw [hscale, hrest]

theorem exists_grid (k : Nat) :
    ∃ s m, k = s * 2 ^ 52 + m ∧ (s = 0 ∨ 2 ^ 52 ≤ m) ∧ m < 2 ^ 53 := by
  refine ⟨k / 2 ^ 52 - 1, k - (k / 2 ^ 52 - 1) * 2 ^ 52, ?_, ?_, ?_⟩ <;> omega

theorem units_lt_succ (k : Nat) : units k < units (k + 1) := by
  obtain ⟨s, m, rfl, hs, hm⟩ := exists_grid k
  have hs' : s = 0 ∨ 2 ^ 52 ≤ m + 1 := by omega
  rw [Nat.add_assoc, units_grid hs hm.le, units_grid hs' hm]
  exact Nat.mul_lt_mul_of_pos_right (Nat.lt_succ_self m) (Nat.two_pow_pos s)

theorem units_strictMono : StrictMono units := strictMono_nat_of_lt_succ units_lt_succ

/-! ## Rounding -/

theorem le_roundEven (num den : Nat) : num / den ≤ roundEven num den := by
  unfold roundEven
  dsimp only
  split <;> omega

theorem roundEven_le (num den : Nat) : roundEven num den ≤ num / den + 1 := by
  unfold roundEven
  dsimp only
  split <;> omega

theorem roundEven_mul (q : Nat) {den : Nat} (hden : 0 < den) : roundEven (q * den) den = q := by
  have hdiv : q * den / den = q := Nat.mul_div_cancel q hden
  have hmod : q * den % den = 0 := Nat.mul_mod_left q den
  unfold roundEven
  dsimp only
  rw [hdiv, hmod, if_pos (by simp [hden])]

theorem roundEven_mono {a b : Nat} (den : Nat) (h : a ≤ b) : roundEven a den ≤ roundEven b den := by
  have hdiv : a / den ≤ b / den := Nat.div_le_div_right h
  by_cases hsame : a / den = b / den
  · have ha := Nat.div_add_mod a den
    have hb := Nat.div_add_mod b den
    rw [hsame] at ha
    have hmod : a % den ≤ b % den := by omega
    unfold roundEven
    dsimp only
    rw [hsame]
    simp only [Bool.or_eq_true, Bool.and_eq_true, beq_iff_eq, decide_eq_true_eq]
    split_ifs <;> omega
  · have hlt : a / den < b / den := by omega
    exact (roundEven_le a den).trans (Nat.le_trans hlt (le_roundEven b den))

/-- The step of the grid on which a number of units is rounded, as a power of two. -/
def gridStep (n : Nat) : Nat := if n < 2 ^ 53 then 0 else n.log2 - 52

/-- The rank to which a number of units is rounded, if there were no infinity. -/
def rankOfUnits (n : Nat) : Nat := gridStep n * 2 ^ 52 + roundEven n (2 ^ gridStep n)

theorem rankOfRatio_one (n : Nat) : rankOfRatio n 1 = min (rankOfUnits n) infiniteRank := by
  unfold rankOfRatio rankOfUnits gridStep
  simp only [Nat.pow_eq, Nat.div_one, Nat.one_mul]

/-- What is rounded lies on its grid. -/
theorem roundEven_gridStep (n : Nat) :
    (gridStep n = 0 ∨ 2 ^ 52 ≤ roundEven n (2 ^ gridStep n)) ∧
      roundEven n (2 ^ gridStep n) ≤ 2 ^ 53 := by
  have hlow := le_roundEven n (2 ^ gridStep n)
  have hhigh := roundEven_le n (2 ^ gridStep n)
  unfold gridStep at hlow hhigh ⊢
  split_ifs at hlow hhigh ⊢ with hn
  · refine ⟨.inl rfl, ?_⟩
    rw [Nat.pow_zero, Nat.div_one] at hhigh
    rw [Nat.pow_zero]
    omega
  · have hne : n ≠ 0 := by omega
    have hlog : 53 ≤ n.log2 := (Nat.le_log2 hne).mpr (Nat.le_of_not_lt hn)
    have hfrom : 2 ^ 52 ≤ n / 2 ^ (n.log2 - 52) := by
      rw [Nat.le_div_iff_mul_le (Nat.two_pow_pos _), ← Nat.pow_add]
      have hexp : 52 + (n.log2 - 52) = n.log2 := by omega
      rw [hexp]
      exact Nat.log2_self_le hne
    have hto : n / 2 ^ (n.log2 - 52) < 2 ^ 53 := by
      rw [Nat.div_lt_iff_lt_mul (Nat.two_pow_pos _), ← Nat.pow_add]
      have hexp : 53 + (n.log2 - 52) = n.log2 + 1 := by omega
      rw [hexp]
      exact Nat.lt_log2_self
    omega

/-- A number of units is rounded to a multiple of the step of its grid. -/
theorem units_rankOfUnits (n : Nat) :
    units (rankOfUnits n) = roundEven n (2 ^ gridStep n) * 2 ^ gridStep n :=
  units_grid (roundEven_gridStep n).1 (roundEven_gridStep n).2

theorem gridStep_mono {a b : Nat} (h : a ≤ b) : gridStep a ≤ gridStep b := by
  unfold gridStep
  split_ifs with ha hb
  · exact Nat.le_refl 0
  · exact Nat.zero_le _
  · omega
  · have hlog : a.log2 ≤ b.log2 :=
      (Nat.le_log2 (by omega)).mpr ((Nat.log2_self_le (by omega)).trans h)
    omega

theorem rankOfUnits_mono {a b : Nat} (h : a ≤ b) : rankOfUnits a ≤ rankOfUnits b := by
  unfold rankOfUnits
  have hstep := gridStep_mono h
  by_cases hsame : gridStep a = gridStep b
  · rw [hsame]
    exact Nat.add_le_add_left (roundEven_mono _ h) _
  · have ha := (roundEven_gridStep a).2
    have hb := (roundEven_gridStep b).1
    have hlt : gridStep a + 1 ≤ gridStep b := by omega
    have hmul := Nat.mul_le_mul_right (2 ^ 52) hlt
    omega

theorem rankOfRatio_mono {a b : Nat} (h : a ≤ b) : rankOfRatio a 1 ≤ rankOfRatio b 1 := by
  rw [rankOfRatio_one, rankOfRatio_one]
  exact min_le_min_right _ (rankOfUnits_mono h)

/-- A number of at most 53 binary places before its zeros lies on its grid. -/
theorem gridStep_le {n : Nat} (h : n < 2 ^ 53) (e : Nat) : gridStep (n * 2 ^ e) ≤ e := by
  unfold gridStep
  split_ifs with hn
  · exact Nat.zero_le e
  · have hlog : (n * 2 ^ e).log2 < 53 + e := by
      rw [Nat.log2_lt (by omega), Nat.pow_add]
      exact Nat.mul_lt_mul_of_pos_right h (Nat.two_pow_pos e)
    omega

theorem infiniteRank_eq : infiniteRank = 2047 * 2 ^ 52 := by
  unfold infiniteRank
  rw [Nat.pow_eq]

/-- Such a number is not rounded. -/
theorem units_rankOfUnits_mul {n : Nat} (h : n < 2 ^ 53) (e : Nat) :
    units (rankOfUnits (n * 2 ^ e)) = n * 2 ^ e := by
  have hstep := gridStep_le h e
  have hmul : n * 2 ^ e = n * 2 ^ (e - gridStep (n * 2 ^ e)) * 2 ^ gridStep (n * 2 ^ e) := by
    rw [Nat.mul_assoc, ← Nat.pow_add, Nat.sub_add_cancel hstep]
  rw [units_rankOfUnits]
  generalize gridStep (n * 2 ^ e) = s at hmul
  rw [hmul, roundEven_mul _ (Nat.two_pow_pos s)]

theorem units_rankOfRatio_mul {n e : Nat} (h : n < 2 ^ 53) (he : e ≤ 2045) :
    units (rankOfRatio (n * 2 ^ e) 1) = n * 2 ^ e := by
  have hstep := gridStep_le h e
  have hfinite : rankOfUnits (n * 2 ^ e) ≤ infiniteRank := by
    have hgrid := (roundEven_gridStep (n * 2 ^ e)).2
    rw [infiniteRank_eq, rankOfUnits]
    generalize gridStep (n * 2 ^ e) = s at hstep hgrid
    omega
  rw [rankOfRatio_one, min_eq_left hfinite, units_rankOfUnits_mul h]

/-- The size of a double is rounded to this double. -/
theorem rankOfUnits_units (k : Nat) : rankOfUnits (units k) = k := by
  obtain ⟨s, m, hk, hs, hm⟩ := exists_grid k
  have hunits : units k = m * 2 ^ s := by rw [hk, units_grid hs hm.le]
  apply units_strictMono.injective
  rw [hunits]
  exact units_rankOfUnits_mul hm s

/-- The place of the double nearest to a number of units. -/
def placeOfUnits (u : ℤ) : ℤ := if u < 0 then -(rankOfRatio u.natAbs 1 : ℤ) else rankOfRatio u.natAbs 1

/-- Rounding keeps the order of all numbers. -/
theorem placeOfUnits_mono {u v : ℤ} (h : u ≤ v) : placeOfUnits u ≤ placeOfUnits v := by
  unfold placeOfUnits
  split_ifs with hu hv
  · have hrank : rankOfRatio v.natAbs 1 ≤ rankOfRatio u.natAbs 1 := rankOfRatio_mono (by omega)
    omega
  · omega
  · omega
  · have hrank : rankOfRatio u.natAbs 1 ≤ rankOfRatio v.natAbs 1 := rankOfRatio_mono (by omega)
    omega

/-! ## Integers -/

theorem exists_one_eq : ∃ e ≤ 1074, one = 2 ^ e := by
  obtain ⟨e, he⟩ : ∃ e, e = 1074 := ⟨_, rfl⟩
  refine ⟨e, he.le, ?_⟩
  unfold one
  rw [← he, Nat.pow_eq]

theorem one_pos : 0 < one := by
  obtain ⟨e, -, he⟩ := exists_one_eq
  rw [he]
  exact Nat.two_pow_pos e

/-- The rank of the double nearest to a natural number. -/
def rankOfNat (n : Nat) : Nat := rankOfRatio (n * one) 1

theorem rankOfNat_mono {a b : Nat} (h : a ≤ b) : rankOfNat a ≤ rankOfNat b :=
  rankOfRatio_mono (Nat.mul_le_mul_right one h)

theorem rankOfNat_le (n : Nat) : rankOfNat n ≤ infiniteRank := by
  rw [rankOfNat, rankOfRatio_one]
  exact Nat.min_le_right _ _

/-- Natural numbers up to `2⁵³` are doubles. -/
theorem units_rankOfNat {n : Nat} (h : n ≤ 2 ^ 53) : units (rankOfNat n) = n * one := by
  obtain ⟨e, he, hone⟩ := exists_one_eq
  rw [rankOfNat, hone]
  by_cases htop : n = 2 ^ 53
  · have hhalf : 2 ^ 53 * 2 ^ e = 2 ^ 52 * 2 ^ (e + 1) := by rw [Nat.pow_succ]; omega
    rw [htop, hhalf]
    exact units_rankOfRatio_mul (by decide) (by omega)
  · exact units_rankOfRatio_mul (by omega) (by omega)

/-- A natural number below `2⁵³` is told apart from all greater ones. -/
theorem rankOfNat_lt {a b : Nat} (hab : a < b) (ha : a < 2 ^ 53) : rankOfNat a < rankOfNat b := by
  have hle : min b (2 ^ 53) ≤ 2 ^ 53 := Nat.min_le_right _ _
  have hlt : a < min b (2 ^ 53) := by omega
  have hunits : units (rankOfNat a) < units (rankOfNat (min b (2 ^ 53))) := by
    rw [units_rankOfNat ha.le, units_rankOfNat hle]
    exact Nat.mul_lt_mul_of_pos_right hlt one_pos
  exact (units_strictMono.lt_iff_lt.mp hunits).trans_le (rankOfNat_mono (Nat.min_le_left _ _))

theorem ofInt_eq (n : Int) : ofInt n = ofRank (decide (n < 0)) (rankOfNat n.natAbs) := rfl

theorem rankOfNat_lt_word (n : Nat) : rankOfNat n < Nat.pow 2 63 := by
  have hle := rankOfNat_le n
  rw [infiniteRank_eq] at hle
  rw [Nat.pow_eq]
  omega

theorem rank_ofInt (n : Int) : (ofInt n).rank = rankOfNat n.natAbs := by
  rw [ofInt_eq, rank_ofRank _ (rankOfNat_lt_word _)]

theorem isNegative_ofInt (n : Int) : (ofInt n).isNegative = decide (n < 0) := by
  rw [ofInt_eq, isNegative_ofRank _ (rankOfNat_lt_word _)]

theorem isNaN_ofInt (n : Int) : (ofInt n).isNaN = false := by
  have hle := rankOfNat_le n.natAbs
  rw [isNaN, rank_ofInt]
  exact decide_eq_false (by omega)

theorem position_ofInt (n : Int) :
    (ofInt n).position = if n < 0 then -(rankOfNat n.natAbs : Int) else rankOfNat n.natAbs := by
  rw [position, isNegative_ofInt, rank_ofInt]
  simp only [decide_eq_true_eq]

theorem position_ofInt_eq (n : Int) : (ofInt n).position = placeOfUnits (n * one) := by
  have hone : (0 : Int) < one := Int.natCast_pos.mpr one_pos
  have hneg : (n : Int) * one < 0 ↔ n < 0 := by
    rw [Int.mul_neg_iff]
    omega
  have habs : (n * one : Int).natAbs = n.natAbs * one := by rw [Int.natAbs_mul, Int.natAbs_natCast]
  rw [position_ofInt, placeOfUnits, habs]
  exact if_congr hneg.symm rfl rfl

/-- Rounding keeps the order of all integers. -/
theorem position_ofInt_mono {a b : Int} (h : a ≤ b) : (ofInt a).position ≤ (ofInt b).position := by
  rw [position_ofInt_eq, position_ofInt_eq]
  exact placeOfUnits_mono (Int.mul_le_mul_of_nonneg_right h (Int.natCast_nonneg one))

/-- Nearest doubles that stand at the same place are the same: only zero itself becomes zero. -/
theorem position_ofInt_inj {a b : Int} :
    (ofInt a).position = (ofInt b).position ↔ ofInt a = ofInt b := by
  refine ⟨fun h => ?_, fun h => by rw [h]⟩
  have hpos : ∀ n : Int, n < 0 → 0 < rankOfNat n.natAbs := by
    intro n hn
    exact (Nat.zero_le _).trans_lt (rankOfNat_lt (a := 0) (by omega) (by decide))
  rw [position_ofInt, position_ofInt] at h
  rw [ofInt_eq, ofInt_eq]
  split_ifs at h with ha hb hb
  · have hrank : rankOfNat a.natAbs = rankOfNat b.natAbs := by omega
    rw [hrank, decide_eq_true ha, decide_eq_true hb]
  · have := hpos a ha
    omega
  · have := hpos b hb
    omega
  · have hrank : rankOfNat a.natAbs = rankOfNat b.natAbs := by omega
    rw [hrank, decide_eq_false ha, decide_eq_false hb]

/-- Integers are told apart when one of them is below `2⁵³` in size. -/
theorem ofInt_injective_below {a b : Int} (h : a.natAbs < 2 ^ 53 ∨ b.natAbs < 2 ^ 53)
    (heq : ofInt a = ofInt b) : a = b := by
  have hneg : a < 0 ↔ b < 0 := by
    have hsign := congrArg isNegative heq
    rw [isNegative_ofInt, isNegative_ofInt] at hsign
    simpa using hsign
  have hrank : rankOfNat a.natAbs = rankOfNat b.natAbs := by
    rw [← rank_ofInt, ← rank_ofInt, heq]
  by_contra hne
  have habs : a.natAbs ≠ b.natAbs := by omega
  rcases Nat.lt_or_gt_of_ne habs with hlt | hlt
  · have := rankOfNat_lt hlt (by omega)
    omega
  · have := rankOfNat_lt hlt (by omega)
    omega

/-! ## Values -/

/-- The rational number that a finite double is. -/
def toRat (x : Double) : ℚ :=
  (if x.isNegative then -(units x.rank : ℤ) else units x.rank : ℤ) / one

/-- A double without a fraction is its whole part. -/
theorem toRat_of_isIntegral {x : Double} (h : x.isIntegral = true) : x.toRat = x.truncate := by
  have hmod : units x.rank % one = 0 := by
    rw [isIntegral, Bool.and_eq_true, beq_iff_eq] at h
    exact h.2
  have hunits : units x.rank = units x.rank / one * one :=
    (Nat.div_mul_cancel (Nat.dvd_of_mod_eq_zero hmod)).symm
  have hone : (one : ℚ) ≠ 0 := Nat.cast_ne_zero.mpr one_pos.ne'
  unfold toRat truncate
  generalize units x.rank / one = q at hunits
  rw [hunits]
  dsimp only
  split_ifs
  · push_cast
    field_simp
  · push_cast
    field_simp

end Double

namespace Number

def toRat : Number → ℚ
  | int n => n
  | double x => x.toRat

end Number

/-! ## Words -/

theorem clampSigned_eq_iff {n : Int} : clampSigned n = n ↔ fitsSigned n = true := by
  unfold clampSigned fitsSigned
  rw [Bool.and_eq_true, decide_eq_true_iff, decide_eq_true_iff]
  simp only [Int.pow_eq]
  omega

end SingleTable
