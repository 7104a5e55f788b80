import SingleTable.Config.Basic

/-! # Configurations as documents

* `Json.positions?`: the values of named fields, in an object or, by position, in an array.
* `ofJson?` and `toJson` of dialects, namings, columns, catalogs and configurations.
-/

namespace SingleTable

/-- The values of the fields `names`: of an object those that it has, whatever else it holds; of an
array those at their positions, of which the last ones may be missing. -/
def Json.positions? (names : List String) : Json → Option (String → Option Json)
  | .object fields => some (Record.get? fields)
  | .array items =>
    if items.length ≤ names.length then some fun name => (names.zip items).lookup name else none
  | _ => none

/-- The one choice that a name makes, or an object whose only field has that name and no content. -/
def Json.choice? : Json → Option String
  | .string s => some s
  | .object [(name, .null)] => some name
  | _ => none

def Json.text? : Json → Option String
  | .string s => some s
  | _ => none

def Json.truth? : Json → Option Bool
  | .bool b => some b
  | _ => none

def Json.nullable? {α : Type} (read : Json → Option α) : Json → Option (Option α)
  | .null => some none
  | j => (read j).map some

def Json.fieldOr {α : Type} (otherwise : α) (read : Json → Option α) : Option Json → Option α
  | none => some otherwise
  | some j => read j

def Dialect.ofJson? (j : Json) : Option Dialect := j.choice?.bind ofName?

def Dialect.toJson (d : Dialect) : Json := .string d.name

def Naming.ofJson? (j : Json) : Option Naming := j.choice?.bind ofName?

def Naming.toJson (n : Naming) : Json := .string n.name

/-! ## Columns -/

namespace Column

def fieldNames : List String := ["name", "type", "required"]

def ofJson? (j : Json) : Option Column := do
  let field ← j.positions? fieldNames
  let name ← (← field "name").text?
  let type ← (ColumnType.read (← (← field "type").text?)).toOption
  let required ← Json.fieldOr false Json.truth? (field "required")
  return ⟨name, type, required⟩

def toJson (x : Column) : Json :=
  .object [("name", .string x.name), ("type", .string x.type.text), ("required", .bool x.required)]

end Column

namespace Catalog

def ofJson? : Json → Option Catalog
  | .array items => (items.mapM Column.ofJson?).map ofList
  | _ => none

def toJson (c : Catalog) : Json := .array (c.columns.map Column.toJson)

end Catalog

/-! ## Configurations -/

namespace Config

def fieldNames : List String :=
  ["table", "dialect", "columns", "id_column", "created_column", "updated_column",
   "deleted_column", "soft_delete", "keep_id", "naming"]

/-- Only the table must be named. -/
def ofJson? (j : Json) : Option Config := do
  let field ← j.positions? fieldNames
  let table ← (← field "table").text?
  let start := ofTable table .empty
  let optionalText (name : String) :=
    Json.fieldOr none (Json.nullable? Json.text?) (field name)
  return {
    table
    dialect := ← Json.fieldOr start.dialect Dialect.ofJson? (field "dialect")
    columns := ← Json.fieldOr start.columns Catalog.ofJson? (field "columns")
    idColumn := ← Json.fieldOr start.idColumn Json.text? (field "id_column")
    createdColumn := ← optionalText "created_column"
    updatedColumn := ← optionalText "updated_column"
    deletedColumn := ← optionalText "deleted_column"
    softDelete := ← Json.fieldOr none (Json.nullable? Json.truth?) (field "soft_delete")
    keepId := ← Json.fieldOr start.keepId Json.truth? (field "keep_id")
    naming := ← Json.fieldOr start.naming Naming.ofJson? (field "naming") }

def textOrNull : Option String → Json
  | some s => .string s
  | none => .null

def toJson (c : Config) : Json :=
  .object
    [("table", .string c.table),
     ("dialect", c.dialect.toJson),
     ("columns", c.columns.toJson),
     ("id_column", .string c.idColumn),
     ("created_column", textOrNull c.createdColumn),
     ("updated_column", textOrNull c.updatedColumn),
     ("deleted_column", textOrNull c.deletedColumn),
     ("soft_delete", c.softDelete.elim .null .bool),
     ("keep_id", .bool c.keepId),
     ("naming", c.naming.toJson)]

end Config

end SingleTable
