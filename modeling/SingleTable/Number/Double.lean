/-! # Double precision numbers

A double is a 64 bit word: a sign and a *rank* `k`, where the doubles of one sign are counted by
distance from zero. Every finite double is a whole number of *units*, one unit being `2⁻¹⁰⁷⁴`, so
that reading, rounding and comparing are exact arithmetic on natural numbers.

* `Double`, its sign and rank; `units k`: the size of the `k`-th double.
* `ofRatio`, `ofInt`: the nearest double, a tie going to the even rank.
* `truncate`, `isIntegral`: the whole part, and whether there is nothing else.
* `compare?`: the numeric order, in which the two zeros are equal and NaN takes no part.
-/

namespace SingleTable

structure Double where
  bits : UInt64
deriving DecidableEq

namespace Double

def isNegative (x : Double) : Bool := Nat.pow 2 63 ≤ x.bits.toNat

def rank (x : Double) : Nat := x.bits.toNat % Nat.pow 2 63

/-- The rank of infinity; larger ranks are NaN. -/
def infiniteRank : Nat := 2047 * Nat.pow 2 52

def isFinite (x : Double) : Bool := x.rank < infiniteRank

def isNaN (x : Double) : Bool := infiniteRank < x.rank

def ofRank (negative : Bool) (k : Nat) : Double :=
  ⟨UInt64.ofNat (if negative then Nat.pow 2 63 + k else k)⟩

theorem rank_ofRank (negative : Bool) {k : Nat} (h : k < Nat.pow 2 63) :
    (ofRank negative k).rank = k := by
  rw [Nat.pow_eq] at h
  cases negative <;> simp only [ofRank, rank, UInt64.toNat_ofNat', Nat.pow_eq] <;> simp <;> omega

theorem isNegative_ofRank (negative : Bool) {k : Nat} (h : k < Nat.pow 2 63) :
    (ofRank negative k).isNegative = negative := by
  rw [Nat.pow_eq] at h
  cases negative <;> simp only [ofRank, isNegative, UInt64.toNat_ofNat', Nat.pow_eq] <;> simp <;>
    omega

theorem ofRank_rank (x : Double) : ofRank x.isNegative x.rank = x := by
  have h := x.bits.toNat_lt
  have hb : UInt64.ofNat (if x.isNegative then Nat.pow 2 63 + x.rank else x.rank) = x.bits := by
    apply UInt64.toNat_inj.1
    rw [UInt64.toNat_ofNat']
    cases hn : x.isNegative with
    | false =>
      have hlt : ¬ Nat.pow 2 63 ≤ x.bits.toNat := of_decide_eq_false hn
      simp only [Bool.false_eq_true, if_false, rank, Nat.pow_eq] at hlt ⊢
      omega
    | true =>
      have hle : Nat.pow 2 63 ≤ x.bits.toNat := of_decide_eq_true hn
      simp only [if_true, rank, Nat.pow_eq] at hle ⊢
      omega
  simp only [ofRank, hb]

def zero : Double := ofRank false 0
def infinity : Double := ofRank false infiniteRank
def nan : Double := ofRank false (infiniteRank + Nat.pow 2 51)

/-! ## Size in units -/

def significand (k : Nat) : Nat := if k < Nat.pow 2 52 then k else Nat.pow 2 52 + k % Nat.pow 2 52

def scale (k : Nat) : Nat := k / Nat.pow 2 52 - 1

def units (k : Nat) : Nat := significand k * Nat.pow 2 (scale k)

def one : Nat := Nat.pow 2 1074

/-! ## Rounding -/

/-- The whole number nearest to `num / den`, a tie going to the even one. -/
def roundEven (num den : Nat) : Nat :=
  let q := num / den
  let r := 2 * (num % den)
  if r < den || (r == den && q % 2 == 0) then q else q + 1

/-- The rank nearest to `num / den` units. -/
def rankOfRatio (num den : Nat) : Nat :=
  let whole := num / den
  let s := if whole < Nat.pow 2 53 then 0 else whole.log2 - 52
  min (s * Nat.pow 2 52 + roundEven num (den * Nat.pow 2 s)) infiniteRank

def ofRatio (negative : Bool) (num den : Nat) : Double :=
  ofRank negative (rankOfRatio (num * one) den)

def ofInt (n : Int) : Double := ofRatio (n < 0) n.natAbs 1

def ofBool (b : Bool) : Double := ofInt (if b then 1 else 0)

/-! ## Whole part -/

def truncate (x : Double) : Int :=
  let n : Int := (units x.rank / one : Nat)
  if x.isNegative then -n else n

def isIntegral (x : Double) : Bool := x.isFinite && units x.rank % one == 0

/-! ## Order -/

/-- The rank with its sign: finite and infinite doubles are ordered as these are. -/
def position (x : Double) : Int := if x.isNegative then -(x.rank : Int) else x.rank

def compare? (x y : Double) : Option Ordering :=
  if x.isNaN || y.isNaN then none else some (compare x.position y.position)

end Double

/-! ## Word sizes -/

def clampSigned (n : Int) : Int := max (-Int.pow 2 63) (min n (Int.pow 2 63 - 1))

def clampUnsigned (n : Int) : Nat := min n.toNat (Nat.pow 2 64 - 1)

def fitsSigned (n : Int) : Bool := -Int.pow 2 63 ≤ n && n < Int.pow 2 63

end SingleTable
