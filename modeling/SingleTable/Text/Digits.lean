/-! # Decimal digits

* `decimal n`: the digits of a natural number; `integer n` puts a minus sign before a negative one.
* `fixed w n`: the last `w` digits, zeros in front.
* `value`: the number that a list of digits writes.
-/

namespace SingleTable.Text

def isDigit (c : Char) : Bool := '0' ≤ c && c ≤ '9'

def digitValue (c : Char) : Nat := c.toNat - '0'.toNat

def digitChar (n : Nat) : Char := Char.ofNat ('0'.toNat + n % 10)

def decimal (n : Nat) : List Char := Nat.toDigits 10 n

def integer (n : Int) : List Char :=
  if n < 0 then '-' :: decimal n.natAbs else decimal n.natAbs

def fixed : Nat → Nat → List Char
  | 0, _ => []
  | w + 1, n => fixed w (n / 10) ++ [digitChar n]

@[simp] theorem length_fixed (w n : Nat) : (fixed w n).length = w := by
  induction w generalizing n with
  | zero => rfl
  | succ w ih => simp [fixed, ih]

def value (ds : List Char) : Nat := ds.foldl (fun n c => 10 * n + digitValue c) 0

end SingleTable.Text
