import SingleTable.Json.Basic
import SingleTable.Number.Reading
import SingleTable.Number.Shortest
import SingleTable.Calendar.Reading

/-! # Loose casts of documents

Callers send documents whose values are typed loosely. A cast reads one as text, as a number, as a
truth value or as a point in time.

* `Json.toText`, `Json.toDouble`, `Json.isTruthy`, `Json.toTimestamp?`.
* `Json.storedTimestamp?`: the time in a stored field, where null is no time.
-/

namespace SingleTable

/-- Whole doubles below `10²¹` are written as signed 64 bit numbers, the nearest one if they do not
fit; other doubles have the fewest digits that read back. -/
def Double.castText (x : Double) : String :=
  if x.isNaN then "NaN"
  else if !x.isFinite then (if x.isNegative then "-Infinity" else "Infinity")
  else if x.isIntegral && x.truncate.natAbs < Nat.pow 10 21 then
    String.ofList (Text.integer (clampSigned x.truncate))
  else String.ofList x.positional

namespace Json

def numberText : Number → String
  | .int n => String.ofList (Text.integer n)
  | .double x => x.castText

mutual
def toText : Json → String
  | null => "null"
  | bool b => if b then "true" else "false"
  | number n => numberText n
  | string s => s
  | array items => ",".intercalate (itemTexts items)
  | object _ => "[object Object]"
/-- The texts of the items of an array, where null has none. -/
def itemTexts : List Json → List String
  | [] => []
  | null :: r => "" :: itemTexts r
  | x :: r => toText x :: itemTexts r
end

/-- The number that a text writes; a blank text is zero, and what is no number is NaN. -/
def textToDouble (s : String) : Double :=
  if (Text.trim s.toList).isEmpty then .zero else (Double.ofTrimmed? s).getD .nan

/-- The cast to a number of everything but arrays and objects. -/
def scalarToDouble : Json → Double
  | null => .zero
  | bool b => .ofBool b
  | number n => n.toDouble
  | string s => textToDouble s
  | array _ | object _ => .nan

/-- An empty array is zero, and an array of one plain item is that item. -/
def toDouble : Json → Double
  | array [] => .zero
  | array [x] => scalarToDouble x
  | j => scalarToDouble j

/-- Null, false, zero, NaN and the empty text are false. -/
def isTruthy : Json → Bool
  | null => false
  | bool b => b
  | number n => n.toDouble.rank != 0 && !n.toDouble.isNaN
  | string s => s != ""
  | array _ | object _ => true

/-- A number counts milliseconds since 1970, and null is that moment. -/
def toTimestamp? : Json → Option Calendar.Timestamp
  | null => Calendar.Timestamp.ofMillis? 0
  | number n =>
    let x := n.toDouble
    if x.isFinite then Calendar.Timestamp.ofMillis? (clampSigned x.truncate) else none
  | string s => Calendar.Timestamp.ofText? s
  | _ => none

def storedTimestamp? (j : Json) : Option Calendar.Timestamp :=
  if j.isNull then none else j.toTimestamp?

end Json

end SingleTable
