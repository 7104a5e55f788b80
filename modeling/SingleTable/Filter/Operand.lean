import SingleTable.Json.Cast
import SingleTable.Param.Basic

/-! # Operands

The value that a condition compares with arrives as a bare document, or in an object with one of
six keys that says how to read it.

* `Operand`: a decoded operand; `Operand.decode` looks for the keys in their order.
* `Operand.toParam`: the parameter bound for it.
-/

namespace SingleTable

/-- An operand. A `date` or `dateTime` without content is an invalid date. -/
inductive Operand
  | raw (j : Json)
  | text (s : String)
  | number (x : Double)
  | boolean (b : Bool)
  | date (d : Option Calendar.Date)
  | dateTime (t : Option Calendar.Timestamp)

namespace Operand

/-- The keys of wrappers, the first one present deciding, each with its cast. -/
def wrappers : List (String × (Json → Operand)) :=
  [("value", raw),
   ("string", fun j => text j.toText),
   ("number", fun j => number j.toDouble),
   ("boolean", fun j => boolean j.isTruthy),
   ("date", fun j => date (j.toTimestamp?.map (·.date))),
   ("dateTime", fun j => dateTime j.toTimestamp?)]

def unwrap? (j : Json) : Option Operand :=
  wrappers.findSome? fun (key, cast) => (j.field? key).map cast

def decode (j : Json) : Operand := (unwrap? j).getD (raw j)

def isNull : Operand → Bool
  | raw j => j.isNull
  | _ => false

/-- Whole doubles below `9 · 10¹⁵` are bound as integers; NaN and the infinities as null. -/
def numberParam (x : Double) : Param :=
  if !x.isFinite then .null
  else if x.isIntegral && x.truncate.natAbs < 9000000000000000 then .bigInt x.truncate
  else .double x

def toParam : Operand → Param
  | raw j => .ofJson j
  | text s => .text s
  | number x => numberParam x
  | boolean b => .bool b
  | date d => .ofDate? d
  | dateTime t => .ofTimestamp? t

theorem toParam_ne_default (x : Operand) : x.toParam ≠ .default := by
  cases x with
  | raw j => exact Param.ofJson_ne_default j
  | number x =>
    rw [toParam, numberParam]
    split
    · nofun
    · split <;> nofun
  | date d => cases d <;> nofun
  | dateTime t => cases t <;> nofun
  | _ => nofun

end Operand

end SingleTable
