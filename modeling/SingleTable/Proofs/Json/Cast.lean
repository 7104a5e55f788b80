import SingleTable.Filter.Operand
import SingleTable.Proofs.Number.Reading
import SingleTable.Rows.Compare

/-! # Numbers as texts

The text of a finite double is read back as a number equal to it, and doubles that are not equal have
different texts. The exception are whole numbers that no signed 64 bit word holds and that are still
written as one: they are written as the last word on their side of zero.

* `Double.recast`: the number that the text of a double is cast to.
* `Double.IsSaturated`: a whole number that is not written as it is.
* `Double.numbers_read_back`: which doubles come back, and which share a text.
-/

namespace SingleTable
open Text

namespace Double

/-- The number that the text of a double is cast to. -/
def recast (x : Double) : Double := (Json.string (Json.number (.double x)).toText).toDouble

/-- Too long for a signed word, and not long enough to be written in another way. -/
def IsSaturated (x : Double) : Prop :=
  2 ^ 63 < x.truncate.natAbs ∧ x.truncate.natAbs < 10 ^ 21

instance (x : Double) : Decidable x.IsSaturated := inferInstanceAs (Decidable (_ ∧ _))

variable {x y : Double}

/-! ## Whole doubles -/

theorem natAbs_truncate (x : Double) : x.truncate.natAbs = units x.rank / one := by
  unfold truncate
  dsimp only
  split
  · rw [Int.natAbs_neg, Int.natAbs_natCast]
  · rw [Int.natAbs_natCast]

/-- From `2⁵³` on there are no doubles between two integers. -/
theorem isIntegral_of_le (hfinite : x.isFinite = true) (h : 2 ^ 53 ≤ x.truncate.natAbs) :
    x.isIntegral = true := by
  obtain ⟨e, -, hone⟩ := exists_one_eq
  obtain ⟨s, m, hk, hs, hm⟩ := exists_grid x.rank
  have hunits : units x.rank = m * 2 ^ s := by rw [hk, units_grid hs hm.le]
  rw [natAbs_truncate, Nat.le_div_iff_mul_le Double.one_pos, hunits, hone] at h
  have hle : e ≤ s := by
    by_contra hlt
    have hpow : 2 ^ s ≤ 2 ^ e := Nat.pow_le_pow_right (by decide) (by omega)
    have hsmall := Nat.mul_lt_mul_of_lt_of_le hm hpow (Nat.two_pow_pos e)
    omega
  have hdvd : one ∣ units x.rank := by
    rw [hunits, hone]
    exact (Nat.pow_dvd_pow 2 hle).mul_left m
  rw [isIntegral, hfinite, Bool.true_and, beq_iff_eq]
  exact Nat.mod_eq_zero_of_dvd hdvd

theorem signedUnits_of_isIntegral (h : x.isIntegral = true) : x.signedUnits = x.truncate * one := by
  have hone : (one : ℚ) ≠ 0 := Nat.cast_ne_zero.mpr Double.one_pos.ne'
  have hrat := toRat_of_isIntegral h
  rw [toRat_eq_signedUnits, div_eq_iff hone] at hrat
  exact_mod_cast hrat

theorem compare?_eq_iff (hx : x.isNaN = false) (hy : y.isNaN = false) :
    x.compare? y = some .eq ↔ x.position = y.position := by
  rw [compare?, hx, hy, ← Int.compare_eq_eq]
  exact Option.some_inj

/-! ## Words -/

/-- The integer that is read from the word of an integer. -/
def capped (n : Int) : Int := max (-2 ^ 63) (min n (2 ^ 63))

theorem capped_of_le {n : Int} (h : n.natAbs ≤ 2 ^ 63) : capped n = n := by
  unfold capped
  omega

theorem natAbs_capped {n : Int} (h : 2 ^ 63 ≤ n.natAbs) : (capped n).natAbs = 2 ^ 63 := by
  unfold capped
  omega

/-- The double nearest to the last word is the integer after it. -/
theorem ofInt_clampSigned (n : Int) : ofInt (clampSigned n) = ofInt (capped n) := by
  by_cases h : 2 ^ 63 ≤ n
  · have hclamp : clampSigned n = 2 ^ 63 - 1 := by
      unfold clampSigned
      rw [Int.pow_eq]
      omega
    have hcapped : capped n = 2 ^ 63 := by
      unfold capped
      omega
    rw [hclamp, hcapped]
    decide +kernel
  · congr 1
    unfold clampSigned capped
    rw [Int.pow_eq]
    omega

theorem isExact_word {n : Int} (h : n.natAbs = 2 ^ 63) : (Number.int n).IsExact := by
  obtain ⟨e, he, hone⟩ := exists_one_eq
  refine Number.isExact_of_units ?_
  have hpow : 2 ^ 63 * 2 ^ e = 1 * 2 ^ (63 + e) := by rw [Nat.one_mul, Nat.pow_add]
  rw [rankOfNat, h, hone, hpow]
  exact units_rankOfRatio_mul (by decide) (by omega)

/-! ## Casts -/

theorem textToDouble_of_ofTrimmed? {s : String} (h : ofTrimmed? s = some x) :
    Json.textToDouble s = x := by
  have hne : (trim s.toList).isEmpty = false := by
    rw [List.isEmpty_eq_false_iff]
    intro hempty
    rw [ofTrimmed?, hempty] at h
    cases h
  rw [Json.textToDouble, hne, if_neg Bool.false_ne_true, h, Option.getD_some]

theorem toText_double (x : Double) : (Json.number (.double x)).toText = x.castText := by
  rw [Json.toText, Json.numberText]

theorem recast_eq (x : Double) : x.recast = Json.textToDouble x.castText := by
  rw [recast, toText_double, Json.toDouble, Json.scalarToDouble]
  · nofun
  · nofun

/-- A double that is written as an integer. -/
def IsWhole (x : Double) : Prop := x.isIntegral = true ∧ x.truncate.natAbs < 10 ^ 21

instance (x : Double) : Decidable x.IsWhole := inferInstanceAs (Decidable (_ ∧ _))

theorem castText_eq (hfinite : x.isFinite = true) : x.castText =
    String.ofList (if x.IsWhole then integer (clampSigned x.truncate) else x.positional) := by
  have hwhole : (x.isIntegral && decide (x.truncate.natAbs < Nat.pow 10 21)) = true ↔ x.IsWhole := by
    rw [Bool.and_eq_true, Nat.pow_eq, decide_eq_true_iff]
    rfl
  rw [castText, isNaN_of_isFinite hfinite, if_neg Bool.false_ne_true, hfinite, Bool.not_true,
    if_neg Bool.false_ne_true, apply_ite String.ofList]
  exact if_congr hwhole rfl rfl

theorem isWhole_of_rank (hfinite : x.isFinite = true) (h : x.rank = 0) : x.IsWhole := by
  have hzero : units x.rank = 0 := by rw [h, units_zero]
  constructor
  · rw [isIntegral, hfinite, hzero, Nat.zero_mod]
    rfl
  · rw [natAbs_truncate, hzero, Nat.zero_div]
    decide

theorem recast_of_isWhole (hfinite : x.isFinite = true) (h : x.IsWhole) :
    x.recast = ofInt (capped x.truncate) := by
  have hshort : (clampSigned x.truncate).natAbs < 10 ^ 19 := by
    unfold clampSigned
    rw [Int.pow_eq]
    omega
  rw [recast_eq, castText_eq hfinite, if_pos h, ← ofInt_clampSigned]
  exact textToDouble_of_ofTrimmed? (ofTrimmed?_integer (by decide) hshort)

theorem recast_of_not_isWhole (hfinite : x.isFinite = true) (h : ¬ x.IsWhole) : x.recast = x := by
  have hpos : 0 < x.rank := Nat.pos_of_ne_zero fun hzero => h (isWhole_of_rank hfinite hzero)
  rw [recast_eq, castText_eq hfinite, if_neg h]
  exact textToDouble_of_ofTrimmed? (ofTrimmed?_positional hfinite hpos)

theorem isWhole_of_le (hfinite : x.isFinite = true) (hlong : 2 ^ 63 ≤ x.truncate.natAbs)
    (hshort : x.truncate.natAbs < 10 ^ 21) : x.IsWhole :=
  ⟨isIntegral_of_le hfinite (by omega), hshort⟩

theorem isNaN_recast (hfinite : x.isFinite = true) : x.recast.isNaN = false := by
  by_cases h : x.IsWhole
  · rw [recast_of_isWhole hfinite h, isNaN_ofInt]
  · rw [recast_of_not_isWhole hfinite h, isNaN_of_isFinite hfinite]

/-- What is read back stands at the place of the double, unless it was cut to a word. -/
theorem position_recast_iff (hfinite : x.isFinite = true) :
    x.recast.position = x.position ↔ ¬ x.IsSaturated := by
  by_cases h : x.IsWhole
  · rw [recast_of_isWhole hfinite h]
    have hunits := signedUnits_of_isIntegral h.1
    constructor
    · intro hposition hsaturated
      have hword := natAbs_capped hsaturated.1.le
      have hexact : (ofInt (capped x.truncate)).signedUnits = capped x.truncate * one :=
        isExact_word hword
      rw [signedUnits_eq_of_position_eq hposition, hunits] at hexact
      have hone : (one : ℤ) ≠ 0 := Int.natCast_ne_zero.mpr Double.one_pos.ne'
      have heq := Int.eq_of_mul_eq_mul_right hone hexact
      have := hsaturated.1
      omega
    · intro hunsaturated
      have hshort : x.truncate.natAbs ≤ 2 ^ 63 := by
        by_contra hlong
        exact hunsaturated ⟨Nat.lt_of_not_le hlong, h.2⟩
      rw [position_ofInt_eq, position_eq_placeOfUnits hfinite, capped_of_le hshort, hunits]
  · rw [recast_of_not_isWhole hfinite h]
    exact ⟨fun _ hsaturated => h (isWhole_of_le hfinite hsaturated.1.le hsaturated.2), fun _ => rfl⟩

theorem castText_of_le (hfinite : x.isFinite = true) (hlong : 2 ^ 63 ≤ x.truncate.natAbs)
    (hshort : x.truncate.natAbs < 10 ^ 21) :
    x.castText = if x.isNegative then "-9223372036854775808" else "9223372036854775807" := by
  rw [castText_eq hfinite, if_pos (isWhole_of_le hfinite hlong hshort)]
  have hsign : x.truncate = if x.isNegative then -(x.truncate.natAbs : ℤ) else x.truncate.natAbs := by
    rw [natAbs_truncate]
    rfl
  have hclamp : clampSigned x.truncate =
      if x.isNegative then -9223372036854775808 else 9223372036854775807 := by
    unfold clampSigned
    rw [Int.pow_eq]
    split_ifs at hsign ⊢ <;> omega
  rw [hclamp]
  cases x.isNegative <;> decide +kernel

theorem castText_of_rank (hfinite : x.isFinite = true) (h : x.rank = 0) : x.castText = "0" := by
  have hzero : x.truncate.natAbs = 0 := by rw [natAbs_truncate, h, units_zero, Nat.zero_div]
  rw [castText_eq hfinite, if_pos (isWhole_of_rank hfinite h), Int.natAbs_eq_zero.mp hzero]
  decide +kernel

/-- Doubles that come back have the same text if they are equal, and only then. -/
theorem castText_eq_iff (hx : x.isFinite = true) (hy : y.isFinite = true) (hx' : ¬ x.IsSaturated)
    (hy' : ¬ y.IsSaturated) : x.castText = y.castText ↔ x.compare? y = some .eq := by
  rw [compare?_eq_iff (isNaN_of_isFinite hx) (isNaN_of_isFinite hy)]
  constructor
  · intro h
    rw [← (position_recast_iff hx).mpr hx', ← (position_recast_iff hy).mpr hy', recast_eq, recast_eq, h]
  · intro h
    rcases rank_eq_of_position_eq h with ⟨hrank, hrank'⟩ | ⟨hrank, hsign⟩
    · rw [castText_of_rank hx hrank, castText_of_rank hy hrank']
    · rw [← ofRank_rank x, ← ofRank_rank y, hrank, hsign]

/-- **The text of a finite double is read back as a number equal to it, unless it was cut to a word.**
Two doubles that come back share a text only if they are equal, both as operands that are cast to a
text and as stored values that are matched as texts. All whole numbers from `2⁶³` to `10²¹` are
written as the last word on their side of zero. -/
theorem numbers_read_back (hx : x.isFinite = true) :
    (x.recast.compare? x = some .eq ↔ ¬ x.IsSaturated) ∧
    (2 ^ 63 ≤ x.truncate.natAbs → x.truncate.natAbs < 10 ^ 21 →
      (Json.number (.double x)).toText =
        if x.isNegative then "-9223372036854775808" else "9223372036854775807") ∧
    (∀ y : Double, y.isFinite = true → ¬ x.IsSaturated → ¬ y.IsSaturated →
      ((Json.number (.double x)).toText = (Json.number (.double y)).toText ↔
        x.compare? y = some .eq)) ∧
    (Json.number (.double x)).storedText = (Json.number (.double x)).toText ∧
    Operand.decode (.object [("string", .number (.double x))]) =
      .text (Json.number (.double x)).toText := by
  refine ⟨?_, fun hlong hshort => ?_, fun y hy hx' hy' => ?_, rfl, rfl⟩
  · rw [compare?_eq_iff (isNaN_recast hx) (isNaN_of_isFinite hx), position_recast_iff hx]
  · rw [toText_double, castText_of_le hx hlong hshort]
  · rw [toText_double, toText_double, castText_eq_iff hx hy hx' hy']

/-- A tenth and `10²¹` come back and have texts of their own, and `2⁶³` is written as a word. -/
theorem numbers_read_back_tenth :
    let tenth : Double := ⟨0x3fb999999999999a⟩
    let long : Double := ⟨0x444b1ae4d6e2ef50⟩
    (Json.number (.double tenth)).toText = "0.1" ∧ tenth.recast.compare? tenth = some .eq ∧
      (Json.number (.double long)).toText = "1000000000000000000000" ∧
      long.recast.compare? long = some .eq ∧
      (Json.number (.double tenth)).toText ≠ (Json.number (.double long)).toText ∧
      (Json.number (.double (ofInt 9223372036854775808))).toText = "9223372036854775807" := by
  intro tenth long
  have htenth : tenth.isFinite = true ∧ ¬ tenth.IsSaturated := by decide +kernel
  have hlong : long.isFinite = true ∧ ¬ long.IsSaturated := by decide +kernel
  have hdiffer : ¬ tenth.compare? long = some .eq := by decide +kernel
  obtain ⟨hback, -, htexts, -⟩ := numbers_read_back htenth.1
  obtain ⟨hback', -⟩ := numbers_read_back hlong.1
  refine ⟨?_, hback.mpr htenth.2, ?_, hback'.mpr hlong.2,
    mt (htexts long hlong.1 htenth.2 hlong.2).mp hdiffer, ?_⟩
  · rw [toText_double]
    decide +kernel
  · rw [toText_double]
    decide +kernel
  · have hsign : (ofInt 9223372036854775808).isNegative = false := isNegative_ofInt _
    have htext := (numbers_read_back (x := ofInt 9223372036854775808) (by decide +kernel)).2.1
      (by decide +kernel) (by decide +kernel)
    rwa [hsign, if_neg Bool.false_ne_true] at htext

/-- `10²⁰` is not read back, and has the text of its double. -/
theorem numbers_saturated :
    let x : Double := ofInt 100000000000000000000
    let y : Double := ofInt 200000000000000000000
    x.isFinite = true ∧ y.isFinite = true ∧ x.compare? y = some .lt ∧
      (Json.number (.double x)).toText = "9223372036854775807" ∧
      (Json.number (.double y)).toText = "9223372036854775807" ∧
      x.recast.compare? x = some .lt := by
  intro x y
  rw [toText_double, toText_double, recast_eq]
  decide +kernel

end Double

end SingleTable
