import SingleTable.Json.Cast
import SingleTable.Json.Text
import SingleTable.Param.Basic
import SingleTable.Pattern.Like
import SingleTable.Text.Order

/-! # Comparing stored values with parameters

* `Json.compareParam?`: the order between a stored value and a parameter, none when one of them is
  null or they cannot be compared.
* `Json.likeParam?`: does a stored value fit a pattern? None when one of them is null.
* `Json.calendarDate?`, `Param.calendarDate?`: the date of a stored value or a parameter.
-/

namespace SingleTable

namespace Json

/-- The number in a stored value: a number, a truth value, or a text that reads as a number. -/
def storedNumber? : Json → Option Double
  | number n => some n.toDouble
  | bool b => some (.ofBool b)
  | string s => Double.ofTrimmed? s
  | _ => none

/-- The text of a stored value; arrays and objects are written as documents. -/
def storedText : Json → String
  | string s => s
  | array items => (array items).compact
  | object fields => (object fields).compact
  | j => j.toText

def calendarDate? (j : Json) : Option String := j.storedTimestamp?.map (·.date.text)

/-- Numbers are compared by size, dates and times by time, documents for equality, and everything
else as text. -/
def compareParam? (field : Json) (p : Param) : Option Ordering :=
  match field, p with
  | null, _ | _, .null | _, .default => none
  | _, .date d => do return (← field.storedTimestamp?).compare (.midnight d)
  | _, .timestamp t => do return (← field.storedTimestamp?).compare t
  | bool a, .bool b => some (compare a b)
  | _, .bool b => do (← field.storedNumber?).compare? (.ofBool b)
  | _, .bigInt n => do (← field.storedNumber?).compare? (.ofInt n)
  | _, .double x => do (← field.storedNumber?).compare? x
  | number _, .text s | bool _, .text s => do
    (← field.storedNumber?).compare? (← Double.ofTrimmed? s)
  | _, .text s => some (Text.compare field.storedText s)
  | _, .json j => if field.same j then some .eq else none
  | _, .array _ => none

def likeParam? (field : Json) (p : Param) : Option Bool :=
  if field.isNull then none
  else match p with
    | .null | .default => none
    | .text s => some (Like.holds s field.storedText)
    | p => some (Like.holds p.toJson.storedText field.storedText)

end Json

def Param.calendarDate? : Param → Option String
  | .null | .default => none
  | .date d => some d.text
  | .timestamp t => some t.date.text
  | p => p.toJson.calendarDate?

end SingleTable
