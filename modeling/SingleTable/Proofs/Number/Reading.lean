import SingleTable.Number.Reading
import SingleTable.Proofs.Number.Shortest
import SingleTable.Proofs.Text.Blank
import SingleTable.Proofs.Text.Digits

/-! # Reading written numbers

A double is read back from its text without an exponent, and an integer is read as the double nearest
to it.

* `Double.ofDecimal_of_within`: a decimal in the interval of a double is read as this double.
* `Decimal.positional_whole`, `positional_point`: the digits of a text without an exponent.
* `Double.ofTrimmed?_positional`, `Double.ofTrimmed?_integer`: what the texts of numbers are read as.
-/

namespace SingleTable

/-! ## Decimals -/

namespace Double
open Text Decimal

theorem lt_pow_length (n : Nat) : n < 10 ^ (decimal n).length :=
  (Nat.length_toDigits_le_iff (by decide) Nat.length_toDigits_pos).mp (Nat.le_refl _)

theorem pow_length_le {n w : Nat} (h : w < (decimal n).length) (hn : 0 < n) : 10 ^ w ≤ n := by
  cases w with
  | zero => exact hn
  | succ w =>
    have hiff := Nat.length_toDigits_le_iff (n := n) (by decide : 1 < 10) (Nat.succ_pos w)
    have hlong : ¬ (Nat.toDigits 10 n).length ≤ w + 1 := Nat.not_le.mpr h
    exact Nat.not_lt.mp fun hlt => hlong (hiff.mpr hlt)

/-- A decimal between `10⁻³³⁰` and `10³¹⁰` is rounded as a fraction. -/
theorem ofDecimal_eq_ofRatio (negative : Bool) {digits v w : Nat} {e : Int} (hpos : 0 < digits)
    (hv : v ≤ 330) (hlow : 10 ^ (-e).toNat ≤ digits * 10 ^ e.toNat * 10 ^ v) (hw : w ≤ 310)
    (hhigh : digits * 10 ^ e.toNat < 10 ^ w * 10 ^ (-e).toNat) :
    ofDecimal negative digits e =
      ofRatio negative (digits * 10 ^ e.toNat) (10 ^ (-e).toNat) := by
  have hlength : 0 < (decimal digits).length := Nat.length_toDigits_pos
  have hbottom : ¬ (decimal digits).length + e < -330 := by
    intro h
    have hlt : digits * 10 ^ e.toNat * 10 ^ v < 10 ^ ((decimal digits).length + e.toNat + v) := by
      rw [Nat.pow_add, Nat.pow_add]
      exact Nat.mul_lt_mul_of_pos_right (Nat.mul_lt_mul_of_pos_right (lt_pow_length digits)
        (Nat.pow_pos (by decide))) (Nat.pow_pos (by decide))
    have hexp := (Nat.pow_lt_pow_iff_right (by decide : 1 < 10)).mp (hlow.trans_lt hlt)
    omega
  have htop : ¬ 310 < (decimal digits).length + e := by
    intro h
    have hle : 10 ^ ((decimal digits).length - 1 + e.toNat) ≤ digits * 10 ^ e.toNat := by
      rw [Nat.pow_add]
      exact Nat.mul_le_mul_right _ (pow_length_le (by omega) hpos)
    rw [← Nat.pow_add] at hhigh
    have hexp := (Nat.pow_lt_pow_iff_right (by decide : 1 < 10)).mp (hle.trans_lt hhigh)
    omega
  have hzero : ¬ ((digits == 0 || decide ((decimal digits).length + e < -330)) = true) := by
    simp [hpos.ne', hbottom]
  unfold ofDecimal
  dsimp only
  rw [if_neg hzero, if_neg htop, Nat.pow_eq, Nat.pow_eq]

/-- Powers as large as this one are only ever named, so that nothing computes them. -/
theorem exists_two_one_le : ∃ v ≤ 330, 2 * one ≤ 10 ^ v := ⟨330, by decide, by decide +kernel⟩

theorem exists_units_infiniteRank_lt : ∃ w ≤ 310, units infiniteRank < 10 ^ w * one :=
  ⟨310, by decide, by decide +kernel⟩

theorem interval_high_le {k : Nat} (hfinite : k < infiniteRank) :
    (interval k).high ≤ 2 * units infiniteRank := by
  have hself := units_strictMono.monotone hfinite.le
  have hnext : units (k + 1) ≤ units infiniteRank := units_strictMono.monotone hfinite
  unfold interval
  dsimp only
  omega

/-- A decimal in the interval of a double is read as this double. -/
theorem ofDecimal_of_within (negative : Bool) {k : Nat} (hk : 0 < k) (hfinite : k < infiniteRank)
    {d : Decimal} (h : Within (interval k) d) :
    ofDecimal negative d.digits d.exponent = ofRank negative k := by
  obtain ⟨digits, e⟩ := d
  unfold Within at h
  dsimp only at h ⊢
  have hden : 0 < 10 ^ (-e).toNat := Nat.pow_pos (by decide)
  have htwice : digits * (2 * one * 10 ^ e.toNat) = 2 * (digits * 10 ^ e.toNat * one) := by ring
  rw [htwice] at h
  have hround := rankOfRatio_of_contains hk hfinite hden h
  obtain ⟨hpositive, -, -⟩ := interval_lt hk
  have hends := le_of_contains h
  have hfrom : 10 ^ (-e).toNat ≤ 2 * (digits * 10 ^ e.toNat * one) :=
    (Nat.le_mul_of_pos_left _ hpositive).trans hends.1
  have hone := Double.one_pos
  have hdigits : 0 < digits := by
    rcases Nat.eq_zero_or_pos digits with rfl | hpos
    · rw [Nat.zero_mul, Nat.zero_mul] at hfrom
      omega
    · exact hpos
  obtain ⟨v, hv, hunit⟩ := exists_two_one_le
  obtain ⟨w, hw, hinfinite⟩ := exists_units_infiniteRank_lt
  have hlow : 10 ^ (-e).toNat ≤ digits * 10 ^ e.toNat * 10 ^ v := by
    refine hfrom.trans ?_
    calc 2 * (digits * 10 ^ e.toNat * one) = digits * 10 ^ e.toNat * (2 * one) := by ring
      _ ≤ digits * 10 ^ e.toNat * 10 ^ v := Nat.mul_le_mul_left _ hunit
  have hhigh : digits * 10 ^ e.toNat < 10 ^ w * 10 ^ (-e).toNat := by
    have hlast := interval_high_le hfinite
    have hbound : digits * 10 ^ e.toNat * one < 10 ^ w * 10 ^ (-e).toNat * one := by
      have hmul := Nat.mul_le_mul_right (10 ^ (-e).toNat) hlast
      have hlt := Nat.mul_lt_mul_of_pos_right hinfinite hden
      rw [Nat.mul_assoc] at hmul
      have hswap : 10 ^ w * one * 10 ^ (-e).toNat = 10 ^ w * 10 ^ (-e).toNat * one := by ring
      rw [hswap] at hlt
      omega
    exact Nat.lt_of_mul_lt_mul_right hbound
  rw [ofDecimal_eq_ofRatio negative hdigits hv hlow hw hhigh, ofRatio, hround]

end Double

/-! ## Texts of digits -/

namespace Text

variable {ds ws fs : List Char}

/-- A text that begins and ends with a digit. -/
structure DigitEnds (cs : List Char) : Prop where
  head : ∃ c ∈ cs.head?, isDigit c = true
  last : ∃ c ∈ cs.getLast?, isDigit c = true

theorem IsDigits.digitEnds (h : IsDigits ds) : DigitEnds ds where
  head := ⟨_, List.head?_eq_some_head h.ne_nil, h.isDigit _ (List.head_mem h.ne_nil)⟩
  last := ⟨_, List.getLast?_eq_some_getLast h.ne_nil, h.isDigit _ (List.getLast_mem h.ne_nil)⟩

theorem digitEnds_point (hws : IsDigits ws) (hfs : IsDigits fs) : DigitEnds (ws ++ '.' :: fs) where
  head := by
    obtain ⟨c, hc, hdigit⟩ := hws.digitEnds.head
    exact ⟨c, by simp [Option.mem_def.mp hc], hdigit⟩
  last := by
    obtain ⟨c, hc, hdigit⟩ := hfs.digitEnds.last
    exact ⟨c, by simp [List.getLast?_cons, Option.mem_def.mp hc], hdigit⟩

variable {cs : List Char}

theorem DigitEnds.exists_cons (h : DigitEnds cs) :
    ∃ c rest, isDigit c = true ∧ cs = c :: rest := by
  obtain ⟨c, hc, hdigit⟩ := h.head
  exact ⟨c, cs.tail, hdigit, (List.cons_head?_tail hc).symm⟩

/-- A text behind a minus sign, if it is to be negative. -/
def signed (negative : Bool) (cs : List Char) : List Char := if negative then '-' :: cs else cs

theorem trim_signed (negative : Bool) (h : DigitEnds cs) :
    trim (signed negative cs) = signed negative cs := by
  obtain ⟨c, hc, hdigit⟩ := h.head
  obtain ⟨d, hd, hdigit'⟩ := h.last
  refine trim_of_trimmed ⟨?_, ?_⟩
  · cases negative with
    | true =>
      rintro e ⟨⟩
      rfl
    | false =>
      intro e he
      rw [← Option.some.inj (hc.symm.trans he)]
      exact isBlank_of_isDigit hdigit
  · intro e he
    have hlast : (signed negative cs).getLast? = some d := by
      cases negative with
      | true =>
        change ('-' :: cs).getLast? = some d
        rw [List.getLast?_cons, Option.mem_def.mp hd]
        rfl
      | false => exact hd
    rw [← Option.some.inj (hlast.symm.trans he)]
    exact isBlank_of_isDigit hdigit'

end Text

/-! ## Reading -/

namespace Double
open Text Decimal

variable {ds ws fs cs : List Char}

theorem unsigned?_whole (negative : Bool) (h : IsDigits ds) :
    unsigned? negative ds = some (ofDecimal negative (value ds) 0) := by
  have hempty : ds.isEmpty = false := List.isEmpty_eq_false_iff.mpr h.ne_nil
  unfold unsigned?
  simp [h.takeWhile_eq, hempty, exponent?]

theorem unsigned?_point (negative : Bool) (hws : IsDigits ws) (hfs : IsDigits fs) :
    unsigned? negative (ws ++ '.' :: fs) =
      some (ofDecimal negative (value (ws ++ fs)) (-(fs.length : Int))) := by
  have hempty : ws.isEmpty = false := List.isEmpty_eq_false_iff.mpr hws.ne_nil
  have htake : (ws ++ '.' :: fs).takeWhile isDigit = ws := by
    rw [List.takeWhile_append_of_pos hws.isDigit, List.takeWhile_cons_of_neg (by decide),
      List.append_nil]
  unfold unsigned?
  simp [htake, hfs.takeWhile_eq, hempty, exponent?]

theorem word?_of_digitEnds (negative : Bool) (h : DigitEnds cs) : word? negative cs = none := by
  obtain ⟨c, rest, hdigit, rfl⟩ := h.exists_cons
  have hlower : lower (c :: rest) = c :: lower rest := by
    rw [lower, List.map_cons, toLower_of_isDigit hdigit]
    rfl
  have hne : ∀ d ds, isDigit d = false → (c :: lower rest == d :: ds) = false := by
    intro d ds hd
    refine beq_eq_false_iff_ne.mpr fun heq => ?_
    rw [(List.cons.inj heq).1, hd] at hdigit
    cases hdigit
  have hinf := hne 'i' ['n', 'f'] (by decide)
  have hinfinity := hne 'i' ['n', 'f', 'i', 'n', 'i', 't', 'y'] (by decide)
  have hnan := hne 'n' ['a', 'n'] (by decide)
  unfold word?
  simp [hlower, hinf, hinfinity, hnan]

theorem ofChars?_signed (negative : Bool) (h : DigitEnds cs) :
    ofChars? (signed negative cs) = unsigned? negative cs := by
  have hsign : sign (signed negative cs) = (negative, cs) := by
    cases negative with
    | true => rfl
    | false =>
      obtain ⟨c, rest, hdigit, rfl⟩ := h.exists_cons
      change sign (c :: rest) = _
      unfold sign
      split
      · rename_i heq
        rw [(List.cons.inj heq).1] at hdigit
        cases hdigit
      · rename_i heq
        rw [(List.cons.inj heq).1] at hdigit
        cases hdigit
      · rfl
  unfold ofChars?
  rw [hsign]
  dsimp only
  rw [word?_of_digitEnds negative h, Option.none_or]

theorem ofTrimmed?_signed (negative : Bool) (h : DigitEnds cs) :
    ofTrimmed? (String.ofList (signed negative cs)) = unsigned? negative cs := by
  rw [ofTrimmed?, String.toList_ofList, trim_signed negative h, ofChars?_signed negative h]

end Double

/-! ## Texts without an exponent -/

namespace Decimal
open Text

variable {d : Decimal}

theorem positional_whole (h : 0 ≤ d.exponent) : IsDigits d.positional ∧
    value d.positional = d.digits * 10 ^ d.exponent.toNat := by
  have hpositional : d.positional =
      decimal d.digits ++ List.replicate d.exponent.toNat '0' := if_pos h
  rw [hpositional, value_append_zeros, value_decimal]
  exact ⟨(isDigits_decimal d.digits).append_zeros _, rfl⟩

theorem positional_point (h : d.exponent < 0) : ∃ ws fs, IsDigits ws ∧ IsDigits fs ∧
    d.positional = ws ++ '.' :: fs ∧ value (ws ++ fs) = d.digits ∧
    d.exponent = -(fs.length : Int) := by
  have hds := isDigits_decimal d.digits
  have hvalue := value_decimal d.digits
  unfold positional
  dsimp only
  rw [if_neg (by omega)]
  generalize decimal d.digits = ds at hds hvalue
  split
  · rename_i hplaces
    have hsplit := List.take_append_drop (ds.length - (-d.exponent).toNat) ds
    refine ⟨_, _, ⟨?_, ?_⟩, ⟨?_, ?_⟩, rfl, by rw [hsplit, hvalue], ?_⟩
    · rw [← List.length_pos_iff, List.length_take]
      omega
    · exact fun c hc => hds.isDigit c (List.mem_of_mem_take hc)
    · rw [← List.length_pos_iff, List.length_drop]
      omega
    · exact fun c hc => hds.isDigit c (List.mem_of_mem_drop hc)
    · rw [List.length_drop]
      omega
  · refine ⟨['0'], _, ⟨List.cons_ne_nil _ _, List.forall_mem_singleton.mpr rfl⟩,
      hds.zeros_append _, rfl, ?_, ?_⟩
    · rw [← List.append_assoc, ← List.replicate_one, List.replicate_append_replicate,
        value_zeros_append, hvalue]
    · rw [List.length_append, List.length_replicate]
      omega

theorem digitEnds_positional (d : Decimal) : DigitEnds d.positional := by
  rcases lt_or_ge d.exponent 0 with h | h
  · obtain ⟨ws, fs, hws, hfs, heq, -, -⟩ := positional_point h
    rw [heq]
    exact digitEnds_point hws hfs
  · exact (positional_whole h).1.digitEnds

theorem unsigned?_positional (negative : Bool) {k : Nat} (hk : 0 < k)
    (hfinite : k < Double.infiniteRank) (hd : Within (interval k) d) :
    Double.unsigned? negative d.positional = some (.ofRank negative k) := by
  rcases lt_or_ge d.exponent 0 with h | h
  · obtain ⟨ws, fs, hws, hfs, heq, hvalue, hexponent⟩ := positional_point h
    rw [heq, Double.unsigned?_point negative hws hfs, hvalue, ← hexponent,
      Double.ofDecimal_of_within negative hk hfinite hd]
  · obtain ⟨hds, hvalue⟩ := positional_whole h
    have hshift := within_shift (interval k) d.digits d.exponent.toNat 0
    have hexponent : (0 : Int) + d.exponent.toNat = d.exponent := by omega
    rw [hexponent] at hshift
    rw [Double.unsigned?_whole negative hds, hvalue,
      Double.ofDecimal_of_within negative hk hfinite (hshift.mpr hd)]

end Decimal

/-! ## Numbers -/

namespace Double
open Text Decimal

/-- A finite double that is not zero is read back from its text. -/
theorem ofTrimmed?_positional {x : Double} (hfinite : x.isFinite = true) (hpos : 0 < x.rank) :
    ofTrimmed? (String.ofList x.positional) = some x := by
  have hread := unsigned?_positional x.isNegative hpos (of_decide_eq_true hfinite)
    (within_shortest .up hpos)
  have hsigned := ofTrimmed?_signed x.isNegative (digitEnds_positional (shortest .up x.rank))
  rw [hread, ofRank_rank] at hsigned
  exact hsigned

theorem ofDecimal_zero (negative : Bool) {n w : Nat} (hw : w ≤ 310) (hn : n < 10 ^ w) :
    ofDecimal negative n 0 = ofRatio negative n 1 := by
  rcases Nat.eq_zero_or_pos n with rfl | hpos
  · have hround := rankOfRatio_units (k := 0) (by decide)
    rw [units_zero] at hround
    rw [ofRatio, Nat.zero_mul, hround]
    rfl
  · have hread := ofDecimal_eq_ofRatio negative (v := 0) (e := 0) hpos (by decide)
      (by simpa using Nat.succ_le_of_lt hpos) hw (by simpa using hn)
    simpa using hread

theorem integer_eq_signed (n : Int) : integer n = signed (decide (n < 0)) (decimal n.natAbs) := by
  unfold integer signed
  simp only [decide_eq_true_eq]

/-- An integer is read as the double nearest to it. -/
theorem ofTrimmed?_integer {n : Int} {w : Nat} (hw : w ≤ 310) (hn : n.natAbs < 10 ^ w) :
    ofTrimmed? (String.ofList (integer n)) = some (ofInt n) := by
  have hds := isDigits_decimal n.natAbs
  rw [integer_eq_signed, ofTrimmed?_signed _ hds.digitEnds, unsigned?_whole _ hds, value_decimal,
    ofDecimal_zero _ hw hn]
  rfl

end Double

end SingleTable
