import SingleTable.Catalog
import SingleTable.Dialect
import SingleTable.Payload

/-! # Model configurations

* `Config`: a table, its columns, and the columns that belong to the model and not to its callers.
* `Config.softDeleteColumn?`: the column that hides a row, when deleting hides rows.
* `Config.writable`: the columns that callers may write.
* `Config.validate`: the first defect that makes a configuration unusable.
-/

namespace SingleTable

structure Config where
  table : String
  dialect : Dialect
  columns : Catalog
  idColumn : String
  createdColumn : Option String
  updatedColumn : Option String
  deletedColumn : Option String
  softDelete : Option Bool
  keepId : Bool
  naming : Naming
deriving DecidableEq

namespace Config

/-- The configuration of a table that leaves every choice at its default. -/
def ofTable (table : String) (columns : Catalog) : Config where
  table := table
  dialect := .postgres
  columns := columns
  idColumn := "id"
  createdColumn := none
  updatedColumn := none
  deletedColumn := none
  softDelete := none
  keepId := false
  naming := .camel

/-- Deleting hides rows whenever there is a column for it, unless that is switched off. -/
def softDeleteColumn? (c : Config) : Option String :=
  if c.softDelete.getD true then c.deletedColumn else none

def systemColumns (c : Config) : List String :=
  c.createdColumn.toList ++ c.updatedColumn.toList ++ c.deletedColumn.toList ++
    (if c.keepId then [] else [c.idColumn])

def writable (c : Config) : Catalog := c.columns.without c.systemColumns

/-! ## Defects -/

inductive Defect
  | noTable (table : String)
  | noColumns (table : String)
  | noDeletionColumn (table : String)
deriving DecidableEq

def Defect.message : Defect → String
  | noTable table => "model table name '" ++ table ++ "' is empty after sanitization"
  | noColumns table => "model '" ++ table ++ "' declares no columns"
  | noDeletionColumn table =>
    "model '" ++ table ++ "' enables soft delete without a delete column"

def validate (c : Config) : Except Defect Unit :=
  if (Identifier.sanitize c.table).isEmpty then .error (.noTable c.table)
  else if c.columns.isEmpty then .error (.noColumns c.table)
  else if c.softDelete = some true ∧ c.deletedColumn = none then
    .error (.noDeletionColumn c.table)
  else .ok ()

end Config

end SingleTable
