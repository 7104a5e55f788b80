import Mathlib.Tactic.Ring
import SingleTable.Number.Shortest
import SingleTable.Proofs.Number.Order

/-! # Rounding fractions

A fraction between two doubles goes to the nearer one, and one in the middle to the even rank. The
interval of a double is what this leaves to it.

* `Double.nearestRank_of_between`: a fraction between two doubles that follow each other.
* `Double.rankOfRatio_of_contains`: what lies in the interval of a double is rounded to it.
-/

namespace SingleTable

namespace Double

variable {num den : Nat}

/-- The rank to which a fraction is rounded, if there were no infinity. -/
def nearestRank (num den : Nat) : Nat :=
  gridStep (num / den) * 2 ^ 52 + roundEven num (den * 2 ^ gridStep (num / den))

theorem rankOfRatio_eq (num den : Nat) :
    rankOfRatio num den = min (nearestRank num den) infiniteRank := by
  unfold rankOfRatio nearestRank gridStep
  simp only [Nat.pow_eq]

/-! ## Between two points of a grid -/

theorem roundEven_of_between {m : Nat} (hlow : m * den ≤ num) (hhigh : num < (m + 1) * den) :
    roundEven num den =
      if 2 * num < (2 * m + 1) * den ∨ 2 * num = (2 * m + 1) * den ∧ m % 2 = 0 then m
      else m + 1 := by
  have hdiv : num / den = m := Nat.div_eq_of_lt_le hlow hhigh
  have hsplit := Nat.div_add_mod num den
  rw [hdiv, Nat.mul_comm] at hsplit
  have htwice : (2 * m + 1) * den = 2 * (m * den) + den := by ring
  unfold roundEven
  dsimp only
  rw [hdiv, htwice]
  refine if_congr ?_ rfl rfl
  simp only [Bool.or_eq_true, Bool.and_eq_true, beq_iff_eq, decide_eq_true_eq]
  omega

theorem gridStep_of_between {s m n : Nat} (hs : s = 0 ∨ 2 ^ 52 ≤ m) (hm : m < 2 ^ 53)
    (hlow : m * 2 ^ s ≤ n) (hhigh : n < (m + 1) * 2 ^ s) : gridStep n = s := by
  unfold gridStep
  rcases hs with rfl | hm52
  · exact if_pos (by omega)
  · have hfrom : 2 ^ (52 + s) ≤ n := by
      rw [Nat.pow_add]
      exact (Nat.mul_le_mul_right _ hm52).trans hlow
    have hto : n < 2 ^ (53 + s) := by
      rw [Nat.pow_add]
      exact hhigh.trans_le (Nat.mul_le_mul_right _ hm)
    have hne : n ≠ 0 := ((Nat.two_pow_pos _).trans_le hfrom).ne'
    have hlog : n.log2 = 52 + s := by
      have hge := (Nat.le_log2 hne).mpr hfrom
      have hlt := (Nat.log2_lt hne).mpr hto
      omega
    split_ifs with hsmall
    · have hle : 2 ^ (52 + s) < 2 ^ 53 := hfrom.trans_lt hsmall
      have := (Nat.pow_lt_pow_iff_right (by decide : 1 < 2)).mp hle
      omega
    · omega

/-! ## Between two doubles -/

/-- A fraction between two doubles goes to the nearer one, one in the middle to the even rank. -/
theorem nearestRank_of_between {j : Nat} (hden : 0 < den) (hlow : units j * den ≤ num)
    (hhigh : num < units (j + 1) * den) :
    nearestRank num den =
      if 2 * num < (units j + units (j + 1)) * den ∨
        2 * num = (units j + units (j + 1)) * den ∧ j % 2 = 0 then j else j + 1 := by
  obtain ⟨s, m, rfl, hs, hm⟩ := exists_grid j
  have hs' : s = 0 ∨ 2 ^ 52 ≤ m + 1 := by omega
  have hunits : units (s * 2 ^ 52 + m) = m * 2 ^ s := units_grid hs hm.le
  have hnext : units (s * 2 ^ 52 + m + 1) = (m + 1) * 2 ^ s := by
    rw [Nat.add_assoc, units_grid hs' hm]
  rw [hunits] at hlow ⊢
  rw [hnext] at hhigh ⊢
  have hstep : gridStep (num / den) = s := gridStep_of_between hs hm
    ((Nat.le_div_iff_mul_le hden).mpr hlow) ((Nat.div_lt_iff_lt_mul hden).mpr hhigh)
  have hgrid : roundEven num (den * 2 ^ s) =
      if 2 * num < (2 * m + 1) * (den * 2 ^ s) ∨
        2 * num = (2 * m + 1) * (den * 2 ^ s) ∧ m % 2 = 0 then m else m + 1 := by
    refine roundEven_of_between ?_ ?_
    · rwa [Nat.mul_comm den, ← Nat.mul_assoc]
    · rwa [Nat.mul_comm den, ← Nat.mul_assoc]
  have hmiddle : (m * 2 ^ s + (m + 1) * 2 ^ s) * den = (2 * m + 1) * (den * 2 ^ s) := by ring
  have heven : (s * 2 ^ 52 + m) % 2 = m % 2 := by omega
  rw [nearestRank, hstep, hgrid, hmiddle, heven]
  split_ifs
  · rfl
  · exact (Nat.add_assoc _ _ _).symm

end Double

/-! ## Intervals -/

namespace Decimal

variable {i : Interval} {num den : Nat}

theorem le_of_contains (h : i.contains num den = true) : i.low * den ≤ num ∧ num ≤ i.high * den := by
  unfold Interval.contains at h
  split_ifs at h
  · simpa using h
  · rw [Bool.and_eq_true, decide_eq_true_iff, decide_eq_true_iff] at h
    exact ⟨h.1.le, h.2.le⟩

theorem lt_of_contains (hopen : i.closed = false) (h : i.contains num den = true) :
    i.low * den < num ∧ num < i.high * den := by
  unfold Interval.contains at h
  rw [hopen, if_neg Bool.false_ne_true] at h
  simpa using h

end Decimal

namespace Double
open Decimal

variable {num den : Nat}

/-- What lies in the interval of a double is rounded to it. -/
theorem rankOfRatio_of_contains {k : Nat} (hpos : 0 < k) (hfinite : k < infiniteRank)
    (hden : 0 < den) (h : (interval k).contains (2 * num) den = true) : rankOfRatio num den = k := by
  obtain ⟨j, rfl⟩ := Nat.exists_eq_add_one_of_ne_zero hpos.ne'
  obtain ⟨hlow, hhigh⟩ : (units j + units (j + 1)) * den ≤ 2 * num ∧
      2 * num ≤ (units (j + 1) + units (j + 1 + 1)) * den := le_of_contains h
  have hopen : (j + 1) % 2 ≠ 0 → (units j + units (j + 1)) * den < 2 * num ∧
      2 * num < (units (j + 1) + units (j + 1 + 1)) * den :=
    fun hodd => lt_of_contains (beq_eq_false_iff_ne.mpr hodd) h
  have hbelow : units j * den < units (j + 1) * den :=
    Nat.mul_lt_mul_of_pos_right (units_lt_succ j) hden
  have habove : units (j + 1) * den < units (j + 1 + 1) * den :=
    Nat.mul_lt_mul_of_pos_right (units_lt_succ (j + 1)) hden
  have hnearest : nearestRank num den = j + 1 := by
    rcases Nat.lt_or_ge num (units (j + 1) * den) with hlt | hge
    · have hfrom : units j * den ≤ num := by
        rw [Nat.add_mul] at hlow
        omega
      rw [nearestRank_of_between hden hfrom hlt, if_neg]
      rintro (hlt' | ⟨heq, heven⟩)
      · omega
      · have := (hopen (by omega)).1
        omega
    · have hto : num < units (j + 1 + 1) * den := by
        rw [Nat.add_mul] at hhigh
        omega
      rw [nearestRank_of_between hden hge hto, if_pos]
      by_cases heven : (j + 1) % 2 = 0
      · omega
      · exact .inl (hopen heven).2
  rw [rankOfRatio_eq, hnearest, min_eq_left hfinite.le]

end Double

end SingleTable
