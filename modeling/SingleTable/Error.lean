import SingleTable.Catalog
import SingleTable.Filter.Word

/-! # Errors

* `Refusal`: why arguments are refused before a statement is issued, or a write after it; each
  reason is a constructor with what the caller is told.
* `Report`: a reason as it is shown: a kind, a message, perhaps a key and the expected columns.
* `DriverError`: an error that the database reports.
* `Error`: what an operation may end with, and its text.
-/

namespace SingleTable

inductive ErrorKind
  | badWhereStructure
  | unknownColumn
  | unknownCondition
  | unknownChain
  | unknownDirection
  | missingOrderColumn
  | missingDeleteColumn
  | requiredFieldMissing
  | typeMismatch
  | emptyPartialUpdate
  | invalidPayload
  | duplicateValue
deriving DecidableEq

def ErrorKind.text : ErrorKind → String
  | badWhereStructure => "bad_where_structure"
  | unknownColumn => "unknown_column"
  | unknownCondition => "unknown_condition"
  | unknownChain => "unknown_chain"
  | unknownDirection => "unknown_direction"
  | missingOrderColumn => "missing_order_column"
  | missingDeleteColumn => "missing_delete_column"
  | requiredFieldMissing => "required_field_missing"
  | typeMismatch => "type_mismatch"
  | emptyPartialUpdate => "empty_partial_update"
  | invalidPayload => "invalid_payload"
  | duplicateValue => "duplicate_value"

structure Report where
  kind : ErrorKind
  message : String
  key : Option String := none
  expected : Option Json := none

def Report.text (r : Report) : String :=
  match r.key with
  | some key => r.message ++ " (" ++ r.kind.text ++ ": '" ++ key ++ "')"
  | none => r.message ++ " (" ++ r.kind.text ++ ")"

/-! ## Refusals -/

inductive Refusal
  | filterNotObject
  | entriesNotList
  | entryNotObject
  | chainNotText
  | keyNotText
  | conditionNotText
  | malformedOrder
  | unknownColumn (key : String) (catalog : Catalog)
  | unknownCondition (token : String)
  | unknownChain (token : String)
  | unknownDirection (token : String)
  | listOperand (key : String) (condition : Condition)
  | noCreationColumn (table : String)
  | noDeletionColumn (table : String)
  | fieldMissing (key : String) (catalog : Catalog)
  | wrongType (column : Column) (found : Json) (catalog : Catalog)
  | noKnownColumn (catalog : Catalog)
  | payloadNotObject (catalog : Catalog)
  | payloadNotList (catalog : Catalog)
  | nothingToInsert
  | nothingToUpdate
  | noTarget (catalog : Catalog)
  | duplicate (detail : String) (column : Option String) (catalog : Catalog)

namespace Refusal

def kind : Refusal → ErrorKind
  | filterNotObject | entriesNotList | entryNotObject | chainNotText | keyNotText
  | conditionNotText | malformedOrder | noTarget _ => .badWhereStructure
  | unknownColumn _ _ => .unknownColumn
  | unknownCondition _ => .unknownCondition
  | unknownChain _ => .unknownChain
  | unknownDirection _ => .unknownDirection
  | listOperand _ _ | wrongType _ _ _ => .typeMismatch
  | noCreationColumn _ => .missingOrderColumn
  | noDeletionColumn _ => .missingDeleteColumn
  | fieldMissing _ _ => .requiredFieldMissing
  | noKnownColumn _ | nothingToUpdate => .emptyPartialUpdate
  | payloadNotObject _ | payloadNotList _ | nothingToInsert => .invalidPayload
  | duplicate _ _ _ => .duplicateValue

def message : Refusal → String
  | filterNotObject => "where argument must be an object"
  | entriesNotList => "'where' must be an array of conditions"
  | entryNotObject => "where entries must be objects"
  | chainNotText => "'chain' must be a string"
  | keyNotText => "where entries need a string 'key'"
  | conditionNotText => "'condition' must be a string"
  | malformedOrder => "order terms must be a column name or \x7bkey, direction\x7d"
  | unknownColumn key _ => "'" ++ key ++ "' is not a column of this model"
  | unknownCondition token => "unknown condition '" ++ token ++ "'"
  | unknownChain token => "unknown chain '" ++ token ++ "'"
  | unknownDirection token => "unknown sort direction '" ++ token ++ "'"
  | listOperand _ condition =>
    "a list operand is only valid with '=' or 'in', not '" ++ condition.sql ++ "'"
  | noCreationColumn table =>
    "model '" ++ table ++ "' has no creation timestamp column to order by"
  | noDeletionColumn table => "model '" ++ table ++ "' has no delete timestamp column"
  | fieldMissing _ _ => "required field is missing"
  | wrongType column found _ =>
    "expected " ++ column.type.text ++ " for column '" ++ column.name ++ "', found " ++ found.kind
  | noKnownColumn _ => "partial payload contains no known columns"
  | payloadNotObject _ => "payload must be an object"
  | payloadNotList _ => "payload must be a non-empty array"
  | nothingToInsert => "insert payload contains no writable columns"
  | nothingToUpdate => "update payload contains no writable columns"
  | noTarget _ => "update target must be a primary key or a non-empty filter"
  | duplicate detail _ _ => detail

/-- The key or column that is at fault, when there is one. -/
def key? : Refusal → Option String
  | unknownColumn key _ | listOperand key _ | fieldMissing key _ => some key
  | wrongType column _ _ => some column.name
  | duplicate _ column _ => column
  | _ => none

def catalog? : Refusal → Option Catalog
  | unknownColumn _ c | fieldMissing _ c | wrongType _ _ c | noKnownColumn c | payloadNotObject c
  | payloadNotList c | noTarget c | duplicate _ _ c => some c
  | _ => none

def report (r : Refusal) : Report :=
  ⟨r.kind, r.message, r.key?, r.catalog?.map Catalog.expected⟩

end Refusal

/-! ## Errors of the database -/

structure DriverError where
  code : String
  message : String
  detail : Option String := none
deriving DecidableEq

namespace DriverError

def text (e : DriverError) : String := e.message ++ " (code " ++ e.code ++ ")"

def detailText (e : DriverError) : String := e.detail.getD e.message

/-- The code with which Postgres rejects a second row of one key. -/
def isUniqueViolation (e : DriverError) : Bool := e.code == "23505"

end DriverError

/-! ## All errors -/

inductive Error
  | model (r : Report)
  | driver (e : DriverError)
  | serialization (message : String)
  | custom (message : String)

namespace Error

def text : Error → String
  | model r => "Model error: " ++ r.text
  | driver e => "Driver error: " ++ e.text
  | serialization message => "Serialization error: " ++ message
  | custom message => message

def cause? : Error → Option String
  | model r => some r.text
  | driver e => some e.text
  | _ => none

def modelKind? : Error → Option ErrorKind
  | model r => some r.kind
  | _ => none

def driverCode? : Error → Option String
  | driver e => some e.code
  | _ => none

end Error

/-! ## Steps that succeed -/

section Steps
variable {ε α β : Type}

theorem exists_of_bind_ok {x : Except ε α} {f : α → Except ε β} {b : β}
    (h : (x >>= f) = .ok b) : ∃ a, x = .ok a ∧ f a = .ok b := by
  cases x with
  | error e => cases h
  | ok a => exact ⟨a, rfl, h⟩

theorem exists_of_map_ok {x : Except ε α} {f : α → β} {b : β} (h : x.map f = .ok b) :
    ∃ a, x = .ok a ∧ f a = b := by
  cases x with
  | error e => cases h
  | ok a => exact ⟨a, rfl, Except.ok.inj h⟩

end Steps

end SingleTable
