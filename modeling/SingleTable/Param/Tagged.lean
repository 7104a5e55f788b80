import SingleTable.Param.Basic
import SingleTable.Calendar.Reading

/-! # Tagged parameters

The stored form of a parameter names its kind: `{"BigInt": 5}`, and the bare name for a kind
without content.

* `Param.tagged`: the stored form.
* `Param.ofTagged?`: the parameter that a stored form holds, none when it is not one.
-/

namespace SingleTable.Param

def tag (name : String) (content : Json) : Json := .object [(name, content)]

mutual
def tagged : Param → Json
  | null => .string "Null"
  | bool b => tag "Bool" (.bool b)
  | bigInt n => tag "BigInt" (.number (.int n))
  | double x => tag "Double" (if x.isFinite then .number (.double x) else .null)
  | text s => tag "Text" (.string s)
  | date d => tag "Date" (.string d.text)
  | timestamp t => tag "Timestamp" (.string t.plainText)
  | json j => tag "Json" j
  | array items => tag "Array" (.array (taggedItems items))
  | default => .string "Default"
def taggedItems : List Param → List Json
  | [] => []
  | p :: r => tagged p :: taggedItems r
end

/-- The content of a kind that holds no other parameter. -/
def ofPlain? : String → Json → Option Param
  | "Null", .null => some null
  | "Default", .null => some default
  | "Bool", .bool b => some (bool b)
  | "BigInt", .number (.int n) => if fitsSigned n then some (bigInt n) else none
  | "Double", .number n => some (double n.toDouble)
  | "Text", .string s => some (text s)
  | "Date", .string s => (Calendar.Date.ofPlain? s).map date
  | "Timestamp", .string s => (Calendar.Timestamp.ofPlain? s).map timestamp
  | "Json", j => some (json j)
  | _, _ => none

mutual
def ofTagged? : Json → Option Param
  | .string s => if s = "Null" then some null else if s = "Default" then some default else none
  | .object [(name, .array items)] =>
    if name = "Array" then (ofTaggedItems? items).map array else ofPlain? name (.array items)
  | .object [(name, content)] => ofPlain? name content
  | _ => none
def ofTaggedItems? : List Json → Option (List Param)
  | [] => some []
  | x :: r => do
    let p ← ofTagged? x
    let ps ← ofTaggedItems? r
    return p :: ps
end

end SingleTable.Param
