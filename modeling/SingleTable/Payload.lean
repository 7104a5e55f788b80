import SingleTable.Error
import SingleTable.Json.Cast
import SingleTable.Json.Text
import SingleTable.Pattern.Network
import SingleTable.Text.Camel

/-! # Payloads

A payload is an object whose fields are meant for columns. Mapping it gives a record keyed by
column names, in the order of the catalog, with every value checked against its column's type.

* `Naming`: how the keys of payloads relate to column names; `Naming.candidates` are the keys under
  which a column is looked up.
* `ColumnType.check`: the value as it is kept for a column, none when it does not fit.
* `Payload.map`, `Payload.mapAll`: the record of one payload, and the records of a batch.
-/

namespace SingleTable

inductive Naming
  | snake
  | camel
deriving DecidableEq

namespace Naming

def name : Naming → String
  | snake => "snake"
  | camel => "camel"

def ofName? : String → Option Naming
  | "snake" => some snake
  | "camel" => some camel
  | _ => none

def payloadKey (n : Naming) (column : String) : String :=
  match n with
  | snake => column
  | camel => Text.camel column

def alternateKey (n : Naming) (column : String) : String :=
  match n with
  | snake => Text.camel column
  | camel => column

def candidates (n : Naming) (column : String) : List String :=
  [n.payloadKey column, n.alternateKey column]

end Naming

/-! ## Values of columns -/

namespace ColumnType

/-- Whole numbers are kept; a whole double becomes the nearest signed 64 bit number. -/
def checkInteger : Number → Option Json
  | .int n => some (.number (.int n))
  | .double x => if x.isIntegral then some (.number (.int (clampSigned x.truncate))) else none

def isFiniteNumber : Json → Bool
  | .number n => n.toDouble.isFinite
  | _ => false

def checkPoint (j : Json) : Option Json := do
  let x ← j.field? "x"
  let y ← j.field? "y"
  if isFiniteNumber x && isFiniteNumber y then some (.object [("x", x), ("y", y)]) else none

def keepIf (b : Bool) (j : Json) : Option Json := if b then some j else none

/-- A value that is one word of its type, or a document of it. -/
def checkScalar : ColumnType → Json → Option Json
  | boolean, .bool b => some (.bool b)
  | string, .string s => some (.string s)
  | number, .number n | float, .number n => some (.number n)
  | integer, .number n | serial, .number n => checkInteger n
  | timestamp, j | date, j | dateTime, j =>
    match j with
    | .string _ | .number _ => keepIf j.toTimestamp?.isSome j
    | _ => none
  | uuid, .string s => keepIf (Uuid.isCanonical s) (.string s)
  | cidr, .string s => keepIf (Network.isCidr s) (.string s)
  | json, .string s | jsonb, .string s => some (.string s)
  | json, j | jsonb, j => some (.string j.compact)
  | point, j => checkPoint j
  | enum values, .string s => keepIf (values.contains s) (.string s)
  | _, _ => none

def orNull (check : Json → Option Json) (j : Json) : Option Json :=
  if j.isNull then some .null else check j

/-- The value as it is kept, for a value that is not null. The items of an array may be null. -/
def check : ColumnType → Json → Option Json
  | array inner, .array items => (items.mapM (orNull (check inner))).map .array
  | array _, _ => none
  | t, j => checkScalar t j

end ColumnType

/-! ## Mapping -/

namespace Payload

/-- The value of a column: the first of its two keys that the payload has. -/
def find? (n : Naming) (payload : Record) (column : String) : Option Json :=
  (n.candidates column).findSome? payload.get?

/-- What a payload gives for one column: nothing, a value to keep, or a reason to refuse it. -/
def mapColumn (c : Catalog) (n : Naming) (isPartial : Bool) (payload : Record) (x : Column) :
    Except Refusal (Option Json) :=
  match find? n payload x.name with
  | none =>
    if x.required && !isPartial then .error (.fieldMissing (n.payloadKey x.name) c) else .ok none
  | some .null =>
    if x.required then .error (.fieldMissing (n.payloadKey x.name) c) else .ok (some .null)
  | some j =>
    match x.type.check j with
    | some kept => .ok (some kept)
    | none => .error (.wrongType x j c)

def mapColumns (c : Catalog) (n : Naming) (isPartial : Bool) (payload : Record) :
    List Column → Except Refusal Record
  | [] => .ok []
  | x :: rest => do
    let found ← mapColumn c n isPartial payload x
    let r ← mapColumns c n isPartial payload rest
    match found with
    | some j => return (x.name, j) :: r
    | none => return r

/-- In full mode every required column must be there; in partial mode at least one column must. A
required column is never null. -/
def map (c : Catalog) (n : Naming) (isPartial : Bool) : Json → Except Refusal Record
  | .object payload => do
    let r ← mapColumns c n isPartial payload c.columns
    if isPartial && r.isEmpty then .error (.noKnownColumn c) else return r
  | _ => .error (.payloadNotObject c)

def mapAll (c : Catalog) (n : Naming) (isPartial : Bool) : Json → Except Refusal (List Record)
  | .array [] => .error (.payloadNotList c)
  | .array items => items.mapM (map c n isPartial)
  | _ => .error (.payloadNotList c)

end Payload

end SingleTable
