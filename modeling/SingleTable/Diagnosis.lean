import SingleTable.Dialect
import SingleTable.Error

/-! # Diagnoses of database errors

What an error of a database means, without the codes of its dialect.

* `Diagnosis.Kind`: what went wrong; `Kind.ofCode` reads a dialect's code.
* `Diagnosis.uniqueColumn?`: the column that a rejected duplicate is reported for.
* `Diagnosis.ofError`: the diagnosis of an error.
-/

namespace SingleTable.Diagnosis

inductive Kind
  | invalidUuid
  | duplicateValue
  | foreignKeyViolation
  | notNullViolation
  | typeMismatch
  | unknown
deriving DecidableEq

namespace Kind

def text : Kind → String
  | invalidUuid => "invalid_uuid"
  | duplicateValue => "duplicate_value"
  | foreignKeyViolation => "foreign_key_violation"
  | notNullViolation => "not_null_violation"
  | typeMismatch => "type_mismatch"
  | unknown => "unknown"

def ofPostgresCode : String → Kind
  | "22P02" => invalidUuid
  | "23505" => duplicateValue
  | "23503" => foreignKeyViolation
  | "23502" => notNullViolation
  | _ => unknown

def ofMysqlCode : String → Kind
  | "1062" | "ER_DUP_ENTRY" => duplicateValue
  | "1452" | "ER_NO_REFERENCED_ROW_2" => foreignKeyViolation
  | "1048" | "ER_BAD_NULL_ERROR" => notNullViolation
  | "1411" | "ER_WRONG_VALUE_FOR_TYPE" => typeMismatch
  | _ => unknown

def ofCode : Dialect → String → Kind
  | .mysql => ofMysqlCode
  | .postgres => ofPostgresCode

end Kind

/-! ## The column of a duplicate -/

def behind? (lead cs : List Char) : Option (List Char) :=
  if lead.isPrefixOf cs then some (cs.drop lead.length) else none

/-- A text that begins with `lead`, goes on with one or more characters other than `stop`, and
then with `trail`: the characters between. -/
def enclosedHere? (lead : List Char) (stop : Char) (trail cs : List Char) : Option (List Char) := do
  let rest ← behind? lead cs
  let inner := rest.takeWhile (· != stop)
  if inner.isEmpty || !trail.isPrefixOf (rest.drop inner.length) then none else some inner

/-- The same at the first place in a text where it is found. -/
def enclosed? (lead : List Char) (stop : Char) (trail : List Char) :
    List Char → Option (List Char)
  | [] => none
  | c :: cs => (enclosedHere? lead stop trail (c :: cs)).or (enclosed? lead stop trail cs)

def lastSegment (cs : List Char) : List Char := (cs.splitOn '.').getLastD []

/-- Postgres names the column as `Key (email)=`, in the detail if there is one; MySQL names the key
as `for key 'users.email'`, in the message. -/
def uniqueColumn? (d : Dialect) (e : DriverError) : Option String :=
  let found := match d with
    | .postgres => enclosed? "Key (".toList ')' ")=".toList e.detailText.toList
    | .mysql => enclosed? "for key '".toList '\'' ['\''] e.message.toList
  found.map fun cs => String.ofList (lastSegment cs)

end Diagnosis

/-- What an error means: its kind, the database's code, the column if one is named, and the
database's words. -/
structure Diagnosis where
  kind : Diagnosis.Kind
  code : String
  column : Option String
  detail : String
deriving DecidableEq

def Diagnosis.ofError (d : Dialect) (e : DriverError) : Diagnosis where
  kind := Kind.ofCode d e.code
  code := e.code
  column := if Kind.ofCode d e.code = .duplicateValue then uniqueColumn? d e else none
  detail := e.detailText

end SingleTable
