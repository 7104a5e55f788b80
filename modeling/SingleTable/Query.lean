import SingleTable.Filter.Reading

/-! # Queries

* `Query`: a filter, an order, and a page of the ordered rows.
* `Query.read`: the query that a caller's document asks for.
* `Query.positiveCount`: the whole part of a count, when it is at least one.
-/

namespace SingleTable

structure OrderTerm where
  key : String
  direction : Direction
deriving DecidableEq

structure Query where
  filter : List Node
  order : List OrderTerm := []
  limit : Option Nat := none
  offset : Option Nat := none

namespace Query

def all : Query where
  filter := []

def withOrder (q : Query) (t : OrderTerm) : Query := { q with order := [t] }

def withLimit (q : Query) (n : Nat) : Query :=
  { q with limit := if 0 < n then some n else none }

/-! ## Reading -/

def readDirection : Option Json → Except Refusal Direction :=
  Filter.readToken Direction.ofToken? .ascending .unknownDirection .malformedOrder

def readOrderTerm (c : Catalog) : Json → Except Refusal OrderTerm
  | .string key => do
    Filter.checkColumn c key
    return ⟨key, .ascending⟩
  | .object fields =>
    match Record.get? fields "key" with
    | some (.string key) => do
      Filter.checkColumn c key
      let direction ← readDirection (Record.get? fields "direction")
      return ⟨key, direction⟩
    | _ => .error .malformedOrder
  | _ => .error .malformedOrder

/-- One term, a list of terms, or null for none. -/
def readOrder (c : Catalog) : Json → Except Refusal (List OrderTerm)
  | .null => .ok []
  | .array items => items.mapM (readOrderTerm c)
  | j => do return [← readOrderTerm c j]

/-- A number or a text that reads as one; anything below one, and anything else, is no count. -/
def positiveCount (j : Json) : Option Nat :=
  let ofDouble (x : Double) :=
    if x.isFinite && 1 ≤ x.truncate then some (clampUnsigned x.truncate) else none
  match j with
  | .number n => ofDouble n.toDouble
  | .string s => ofDouble (Json.textToDouble s)
  | _ => none

/-- Order and page are only read beside a field `where`. -/
def read (c : Catalog) (input : Json) : Except Refusal Query := do
  let filter ← Filter.read c input
  match input.field? "where" with
  | none => return { filter }
  | some _ =>
    let order ← match input.field? "order" with
      | some j => readOrder c j
      | none => pure []
    return {
      filter, order
      limit := (input.field? "limit").bind positiveCount
      offset := (input.field? "offset").bind positiveCount }

end Query

end SingleTable
