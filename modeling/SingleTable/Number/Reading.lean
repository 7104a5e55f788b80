import SingleTable.Number.Double
import SingleTable.Text.Blank
import SingleTable.Text.Digits

/-! # Reading a number from text

A number is an optional sign, then digits with at most one point before, between or behind them,
then an optional exponent; or one of the words `inf`, `infinity` and `nan`, in any case. Nothing
else is a number, blanks included; `ofTrimmed?` takes the blanks at the ends away first.

* `Double.ofDecimal`: the double nearest to `digits · 10ᵉ`.
* `Double.ofChars?`, `Double.ofTrimmed?`: the double nearest to the number that a text writes.
-/

namespace SingleTable.Double
open Text

/-- The double nearest to `digits · 10 ^ exponent`. Beyond `10³¹⁰` every number is infinite, and
below `10⁻³³⁰` every one is zero, so that the power is only built between the two. -/
def ofDecimal (negative : Bool) (digits : Nat) (exponent : Int) : Double :=
  let top := (decimal digits).length + exponent
  if digits == 0 || top < -330 then ofRank negative 0
  else if 310 < top then ofRank negative infiniteRank
  else ofRatio negative (digits * Nat.pow 10 exponent.toNat) (Nat.pow 10 (-exponent).toNat)

def sign : List Char → Bool × List Char
  | '-' :: cs => (true, cs)
  | '+' :: cs => (false, cs)
  | cs => (false, cs)

/-- An exponent that is the whole of `cs`; no text is the exponent zero. -/
def exponent? : List Char → Option Int
  | [] => some 0
  | e :: cs =>
    if e == 'e' || e == 'E' then
      let (negative, ds) := sign cs
      if ds.isEmpty || !ds.all isDigit then none
      else some (if negative then -(value ds : Int) else value ds)
    else none

/-- Digits with at most one point, then an exponent. -/
def unsigned? (negative : Bool) (cs : List Char) : Option Double :=
  let whole := cs.takeWhile isDigit
  let rest := cs.drop whole.length
  let fraction := match rest with
    | '.' :: r => r.takeWhile isDigit
    | _ => []
  let rest := match rest with
    | '.' :: r => r.drop fraction.length
    | r => r
  if whole.isEmpty && fraction.isEmpty then none
  else do
    let e ← exponent? rest
    return ofDecimal negative (value (whole ++ fraction)) (e - fraction.length)

def word? (negative : Bool) (cs : List Char) : Option Double :=
  let w := lower cs
  if w == "inf".toList || w == "infinity".toList then some (ofRank negative infiniteRank)
  else if w == "nan".toList then some nan
  else none

def ofChars? (cs : List Char) : Option Double :=
  let (negative, rest) := sign cs
  (word? negative rest).or (unsigned? negative rest)

def ofTrimmed? (s : String) : Option Double := ofChars? (trim s.toList)

end SingleTable.Double
