import SingleTable.Error
import SingleTable.Filter.Operand

/-! # Filter trees

* `Leaf`: one comparison of a column. `Leaf.build` brings a condition and its operand into the form
  in which they agree; `Leaf.isNull` asks for a missing value.
* `Node`: a leaf or a group. A filter is a list of nodes, each joined to the ones before it by its
  chain; the chain of the first node says nothing.
-/

namespace SingleTable

inductive RightSide
  | one (x : Operand)
  | many (xs : List Operand)

namespace RightSide

/-- An array, bare or in the wrapper `value`, is a list of operands. -/
def ofJson (j : Json) : RightSide :=
  match Operand.decode j with
  | .raw (.array items) => many (items.map Operand.decode)
  | x => one x

/-- Membership takes a list; every other condition takes the only item of a list for the list, and
null for the empty one. -/
def fit : Condition → RightSide → RightSide
  | .isIn, one x => many [x]
  | .isIn, many xs => many xs
  | _, one x => one x
  | _, many [] => one (.raw .null)
  | _, many [x] => one x
  | _, many xs => many xs

/-- Settles condition and right side: equality with a list is membership, equality with null and
its negation are tests for null, and no other condition takes a list. -/
def settle (key : String) (c : Condition) (r : RightSide) :
    Except Refusal (Condition × RightSide) :=
  match c, r.fit c with
  | .isIn, r => .ok (.isIn, r)
  | .equals, many xs => .ok (.isIn, many xs)
  | c, many _ => .error (.listOperand key c)
  | .equals, one x => .ok (if x.isNull then .isNull else .equals, one x)
  | .notEquals, one x => .ok (if x.isNull then .isNotNull else .notEquals, one x)
  | c, one x => .ok (c, one x)

end RightSide

structure Leaf where
  key : String
  condition : Condition
  operand : RightSide
  chain : Chain
  dateCast : Bool

namespace Leaf

def build (key : String) (condition : Condition) (value : Json) (chain : Chain)
    (dateCast : Bool) : Except Refusal Leaf := do
  let (condition, operand) ← RightSide.settle key condition (.ofJson value)
  return ⟨key, condition, operand, chain, dateCast⟩

def isNull (key : String) (chain : Chain) : Leaf :=
  ⟨key, .isNull, .one (.raw .null), chain, false⟩

end Leaf

inductive Node
  | leaf (l : Leaf)
  | group (chain : Chain) (children : List Node)

def Node.chain : Node → Chain
  | leaf l => l.chain
  | group chain _ => chain

end SingleTable
