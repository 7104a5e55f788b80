import SingleTable.Json.Basic
import SingleTable.Calendar.Timestamp

/-! # Parameters

The values that travel beside a statement's text.

* `Param`: a bound value; `default` asks for the column's own default and is never bound.
* `Param.ofJson`, `Param.toJson`: the parameter that a document becomes, and the document that a
  database hands back for it.
* `Param.toInt?`, `Param.toDouble?`: the numeric views.
-/

namespace SingleTable

inductive Param
  | null
  | bool (b : Bool)
  | bigInt (n : Int)
  | double (x : Double)
  | text (s : String)
  | date (d : Calendar.Date)
  | timestamp (t : Calendar.Timestamp)
  | json (j : Json)
  | array (items : List Param)
  | default

namespace Param

def isNull : Param → Bool
  | null => true
  | _ => false

def toInt? : Param → Option Int
  | bigInt n => some n
  | bool b => some (if b then 1 else 0)
  | _ => none

def toDouble? : Param → Option Double
  | bigInt n => some (Double.ofInt n)
  | double x => some x
  | _ => none

/-- Whole numbers beyond a signed 64 bit word are bound as doubles. -/
def ofNumber : Number → Param
  | .int n => if fitsSigned n then bigInt n else double (Double.ofInt n)
  | .double x => double x

mutual
def ofJson : Json → Param
  | .null => null
  | .bool b => bool b
  | .number n => ofNumber n
  | .string s => text s
  | .array items => array (ofItems items)
  | .object fields => json (.object fields)
def ofItems : List Json → List Param
  | [] => []
  | x :: r => ofJson x :: ofItems r
end

theorem ofJson_ne_default (j : Json) : ofJson j ≠ .default := by
  cases j with
  | number n =>
    cases n with
    | int n =>
      rw [ofJson, ofNumber]
      split <;> nofun
    | double x => nofun
  | _ => nofun

def ofDate? : Option Calendar.Date → Param
  | some d => date d
  | none => null

def ofTimestamp? : Option Calendar.Timestamp → Param
  | some t => timestamp t
  | none => null

mutual
def toJson : Param → Json
  | null | default => .null
  | bool b => .bool b
  | bigInt n => .number (.int n)
  | double x => if x.isFinite then .number (.double x) else .null
  | text s => .string s
  | date d => .string d.text
  | timestamp t => .string t.isoText
  | json j => j
  | array items => .array (toItems items)
def toItems : List Param → List Json
  | [] => []
  | p :: r => toJson p :: toItems r
end

end Param

end SingleTable
