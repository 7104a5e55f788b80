import SingleTable.Filter.Tree

/-! # Reading a filter

A filter comes as a flat object, every field of which is an equality, or as an object whose field
`where` holds entries. An entry is a comparison, or a group of entries.

* `Filter.checkColumn`: refuses a key that is no column.
* `Filter.readEntries`: the nodes of the field `where`, one for each entry, in their order.
* `Filter.read`: the nodes of a filter.
-/

namespace SingleTable.Filter

def checkColumn (c : Catalog) (key : String) : Except Refusal Unit :=
  if c.contains key then .ok () else .error (.unknownColumn key c)

/-- The token in an optional field: nothing and null stand for `otherwise`. -/
def readToken {α : Type} (ofToken? : String → Option α) (otherwise : α) (unknown : String → Refusal)
    (notText : Refusal) : Option Json → Except Refusal α
  | none | some .null => .ok otherwise
  | some (.string s) =>
    match ofToken? s with
    | some x => .ok x
    | none => .error (unknown s)
  | some _ => .error notText

def readChain (fields : Record) : Except Refusal Chain :=
  readToken Chain.ofToken? .and .unknownChain .chainNotText (fields.get? "chain")

def readCondition (fields : Record) : Except Refusal Condition :=
  readToken Condition.ofToken? .equals .unknownCondition .conditionNotText
    (fields.get? "condition")

def readKey (c : Catalog) (fields : Record) : Except Refusal String :=
  match fields.get? "key" with
  | some (.string key) => do
    checkColumn c key
    return key
  | _ => .error .keyNotText

def readLeaf (c : Catalog) (chain : Chain) (fields : Record) : Except Refusal Leaf := do
  let key ← readKey c fields
  let condition ← readCondition fields
  Leaf.build key condition (fields.get "value") chain (fields.get "date").isTruthy

mutual
def readEntries (c : Catalog) : Json → Except Refusal (List Node)
  | .array items => readItems c items
  | .object fields => (readEntry c fields).map ([·])
  | _ => .error .entriesNotList
termination_by j => sizeOf j

def readItems (c : Catalog) : List Json → Except Refusal (List Node)
  | [] => .ok []
  | .object fields :: rest => do
    let n ← readEntry c fields
    let ns ← readItems c rest
    return n :: ns
  | _ :: _ => .error .entryNotObject
termination_by items => sizeOf items

def readEntry (c : Catalog) (fields : Record) : Except Refusal Node := do
  let chain ← readChain fields
  match _h : fields.get? "where" with
  | some entries => (readEntries c entries).map (.group chain)
  | none => (readLeaf c chain fields).map .leaf
termination_by sizeOf fields
decreasing_by exact Record.sizeOf_lt_of_get? _h
end

def readFlat (c : Catalog) : Record → Except Refusal (List Node)
  | [] => .ok []
  | (key, value) :: rest => do
    checkColumn c key
    let l ← Leaf.build key .equals value .and false
    let ns ← readFlat c rest
    return .leaf l :: ns

def read (c : Catalog) : Json → Except Refusal (List Node)
  | .object fields =>
    match Record.get? fields "where" with
    | some entries => readEntries c entries
    | none => readFlat c fields
  | _ => .error .filterNotObject

end SingleTable.Filter
