import SingleTable.Number.Double
import SingleTable.Text.Digits

/-! # The shortest decimal text of a double

Every double owns the interval of reals that round to it. A *grid* is the set of multiples of one
power of ten; going from coarse grids to fine ones, the first grid with a point in the interval
gives the fewest digits, and of its points the one nearest to the double is taken.

* `Decimal`: digits and a power of ten.
* `shortest tie k`: the shortest decimal of the `k`-th double, `tie` saying which way an exact
  half goes.
* `positional`: the text without an exponent.
* `compact`: the text with an exponent when the number is long.
-/

namespace SingleTable

structure Decimal where
  digits : Nat
  exponent : Int
deriving DecidableEq

namespace Decimal
open Text

/-- Where a number goes that lies halfway between two candidates. -/
inductive Tie
  | up
  | even
deriving DecidableEq

/-- The interval of a double in half units, and whether its ends belong to it. -/
structure Interval where
  low : Nat
  middle : Nat
  high : Nat
  closed : Bool

def interval (k : Nat) : Interval where
  low := Double.units (k - 1) + Double.units k
  middle := 2 * Double.units k
  high := Double.units k + Double.units (k + 1)
  closed := k % 2 == 0

def Interval.contains (i : Interval) (num den : Nat) : Bool :=
  if i.closed then i.low * den ≤ num && num ≤ i.high * den
  else i.low * den < num && num < i.high * den

/-- The nearer of the two grid points `d` and `d + 1` around the middle, where a step of the grid
is `num / den` half units. -/
def nearer (tie : Tie) (i : Interval) (num den d : Nat) : Nat :=
  let below := i.middle * den - d * num
  let above := (d + 1) * num - i.middle * den
  if below < above then d
  else if above < below then d + 1
  else match tie with
    | .up => d + 1
    | .even => if d % 2 == 0 then d else d + 1

/-- The chosen point of the grid with step `10 ^ e`, if one lies in the interval. -/
def onGrid (tie : Tie) (i : Interval) (e : Int) : Option Nat :=
  let num := 2 * Double.one * Nat.pow 10 e.toNat
  let den := Nat.pow 10 (-e).toNat
  let d := i.middle * den / num
  match i.contains (d * num) den, i.contains ((d + 1) * num) den with
  | true, true => some (nearer tie i num den d)
  | true, false => some d
  | false, true => some (d + 1)
  | false, false => none

/-- The first grid with a point, from the step `10 ^ e` down to finer ones. -/
def search (tie : Tie) (i : Interval) : Nat → Int → Decimal
  | 0, e => ⟨0, e⟩
  | n + 1, e =>
    match onGrid tie i e with
    | some d => ⟨d, e⟩
    | none => search tie i n (e - 1)

def normalize : Nat → Decimal → Decimal
  | 0, d => d
  | n + 1, d =>
    if d.digits != 0 && d.digits % 10 == 0 then normalize n ⟨d.digits / 10, d.exponent + 1⟩ else d

/-- A power of ten at or above the double: its size lies below `2 ^ (log2 + 1)` units. -/
def startExponent (k : Nat) : Int :=
  ((Double.units k).log2 + 1 - 1074 : Int) * 30103 / 100000 + 1

/-- Units are whole multiples of `10⁻¹⁰⁷⁴`, so that the search never goes past that grid. -/
def shortest (tie : Tie) (k : Nat) : Decimal :=
  if k == 0 then ⟨0, 0⟩
  else
    let e := startExponent k
    let d := search tie (interval k) (e + 1075).toNat e
    normalize (decimal d.digits).length d

/-! ## Layouts -/

/-- All digits written out, with a point only before a fraction. -/
def positional (d : Decimal) : List Char :=
  let ds := decimal d.digits
  let places := (-d.exponent).toNat
  if 0 ≤ d.exponent then ds ++ List.replicate d.exponent.toNat '0'
  else if places < ds.length then
    ds.take (ds.length - places) ++ '.' :: ds.drop (ds.length - places)
  else '0' :: '.' :: (List.replicate (places - ds.length) '0' ++ ds)

/-- An exponent always has a sign. -/
def exponentChars (e : Int) : List Char := (if e < 0 then '-' else '+') :: decimal e.natAbs

/-- Written out with a point when the first digit stands at most sixteen places before the point or
four behind it, and with an exponent otherwise. -/
def compact (d : Decimal) : List Char :=
  let ds := decimal d.digits
  let point := ds.length + d.exponent
  if d.digits == 0 || (0 ≤ d.exponent && point ≤ 16) then positional d ++ ['.', '0']
  else if -5 < point && point ≤ 16 then positional d
  else
    let mantissa := if ds.length ≤ 1 then ds else ds.take 1 ++ '.' :: ds.drop 1
    mantissa ++ 'e' :: exponentChars (point - 1)

end Decimal

namespace Double

/-- The text of a finite double without an exponent; a half goes up. -/
def positional (x : Double) : List Char :=
  let ds := (Decimal.shortest .up x.rank).positional
  if x.isNegative then '-' :: ds else ds

/-- The text of a finite double in a document; a half goes to the even digit. -/
def compact (x : Double) : List Char :=
  let ds := (Decimal.shortest .even x.rank).compact
  if x.isNegative then '-' :: ds else ds

end Double

end SingleTable
