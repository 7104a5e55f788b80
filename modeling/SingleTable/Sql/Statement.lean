import SingleTable.Config.Basic
import SingleTable.Sql.Filter

/-! # Statements

The statements that a configuration allows, as fragments; `Config.command` writes one in the
configuration's dialect.

* `Config.liveFilter`: a filter that hidden rows do not satisfy.
* `Config.selectById`, `select`, `count`: reading.
* `Config.insert`, `update`, `hardDelete`, `setDeleted`: writing.
* `ColumnType.param`: the parameter bound for a value that has been mapped to a column.
-/

namespace SingleTable

/-! ## Values of columns -/

namespace ColumnType

/-- A value of a time that is none is bound as it is. -/
def scalarParam (t : ColumnType) (j : Json) : Param :=
  match t with
  | timestamp | dateTime => j.toTimestamp?.elim (.ofJson j) .timestamp
  | date => j.toTimestamp?.elim (.ofJson j) fun t => .date t.date
  | json | jsonb =>
    match j with
    | .string s => .text s
    | j => .text j.compact
  | _ => .ofJson j

/-- A null is bound as null, whatever the type. -/
def param : ColumnType → Json → Param
  | _, .null => .null
  | array inner, .array items => .array (items.map (param inner))
  | t, j => scalarParam t j

theorem scalarParam_ne_default (t : ColumnType) (j : Json) : t.scalarParam j ≠ .default := by
  have htime : ∀ f : Calendar.Timestamp → Param, (∀ x, f x ≠ .default) →
      j.toTimestamp?.elim (.ofJson j) f ≠ .default := by
    intro f hf
    cases j.toTimestamp? with
    | none => exact Param.ofJson_ne_default j
    | some x => exact hf x
  unfold scalarParam
  split
  · exact htime .timestamp fun _ => nofun
  · exact htime .timestamp fun _ => nofun
  · exact htime (fun x => .date x.date) fun _ => nofun
  · split <;> nofun
  · split <;> nofun
  · exact Param.ofJson_ne_default j

theorem param_ne_default (t : ColumnType) (j : Json) : t.param j ≠ .default := by
  unfold param
  split
  · nofun
  · nofun
  · exact scalarParam_ne_default _ _

end ColumnType

namespace Catalog
open Sql

/-- A point is built from its two coordinates; every other value is one parameter. -/
def bound (c : Catalog) (name : String) (j : Json) : Fragment :=
  match c.type? name, j with
  | some .point, .object fields =>
    Fragment.call .point
      [Fragment.ofParam (.ofJson (Record.get fields "x")),
       Fragment.ofParam (.ofJson (Record.get fields "y"))]
  | some t, j => Fragment.ofParam (t.param j)
  | none, j => Fragment.ofParam (.ofJson j)

end Catalog

namespace Config
open Sql Fragment

def command (c : Config) (f : Fragment) : Command := Fragment.command c.dialect f

/-! ## Reading -/

/-- The test for missing deletion stands behind the filter; a filter in which a later node is joined
by `OR` becomes a group first, so that the test binds all of it. -/
def liveFilter (c : Config) (filter : List Node) : List Node :=
  match c.softDeleteColumn? with
  | none => filter
  | some deleted =>
    let wrapped :=
      if (filter.drop 1).any fun n => n.chain = .or then [.group .and filter] else filter
    wrapped ++ [.leaf (.isNull deleted .and)]

def matching (column : String) (p : Param) : Fragment :=
  spaced [.ofName column, [.operator .equals], .ofParam p]

def selectById (c : Config) (id : Param) : Fragment :=
  let live := c.softDeleteColumn?.map fun deleted =>
    spaced [[.chain .and], .ofName deleted, [.operator .isNull]]
  ended (spaced
      [.ofWord .select, [.mark .star], .ofWord .source, .ofName c.table, .ofWord .where,
       matching c.idColumn id] ++
    tail live ++ tail (some (counted .limit 1)))

def select (c : Config) (q : Query) : Fragment :=
  Sql.select c.table { q with filter := c.liveFilter q.filter }

def count (c : Config) (filter : List Node) : Fragment :=
  ended (spaced
      [.ofWord .select, call .count [[.mark .star]], .ofWord .named, .ofName "count",
       .ofWord .source, .ofName c.table] ++
    tail (whereClause (c.liveFilter filter)))

/-! ## Writing -/

/-- The columns handed back, on a dialect whose writes hand rows back. -/
def returningClause (d : Dialect) (columns : List String) : Option Fragment :=
  if columns.isEmpty || !d.supportsReturning then none
  else some (spaced [.ofWord .returning, listed (columns.map .ofName)])

/-- The columns of the catalog that at least one row gives a value for. -/
def suppliedColumns (catalog : Catalog) (rows : List Record) : List String :=
  catalog.names.filter fun name => rows.any (·.contains name)

/-- The value of a row for a column; without one the column's default is taken. -/
def cell (catalog : Catalog) (row : Record) (name : String) : Fragment :=
  match row.get? name with
  | some j => catalog.bound name j
  | none => .ofParam .default

def tuple (catalog : Catalog) (columns : List String) (row : Record) : Fragment :=
  enclosed (listed (columns.map (cell catalog row)))

def insert (c : Config) (catalog : Catalog) (rows : List Record) (returning : List String) :
    Except Refusal Fragment :=
  match suppliedColumns catalog rows with
  | [] => .error .nothingToInsert
  | columns => .ok <| ended <|
      spaced
        [.ofWord .insertInto, .ofName c.table, enclosed (listed (columns.map .ofName)),
         .ofWord .values, listed (rows.map (tuple catalog columns))] ++
      tail (returningClause c.dialect returning)

def assignment (catalog : Catalog) (field : String × Json) : Fragment :=
  spaced [.ofName field.1, [.operator .equals], catalog.bound field.1 field.2]

def update (c : Config) (catalog : Catalog) (data : Record) (filter : List Node)
    (returning : List String) : Except Refusal Fragment :=
  match data with
  | [] => .error .nothingToUpdate
  | data => .ok <| ended <|
      spaced
        [.ofWord .update, .ofName c.table, .ofWord .assign,
         listed (data.map (assignment catalog))] ++
      tail (whereClause filter) ++ tail (returningClause c.dialect returning)

def hardDelete (c : Config) (id : Param) : Fragment :=
  ended (spaced
    [.ofWord .deleteFrom, .ofName c.table, .ofWord .where, matching c.idColumn id])

/-- Sets the deletion time of a row: a time hides the row, and null shows it again. -/
def setDeleted (c : Config) (deleted : String) (deletion : Param) (id : Param) : Fragment :=
  ended (spaced
    [.ofWord .update, .ofName c.table, .ofWord .assign, matching deleted deletion, .ofWord .where,
     matching c.idColumn id])

end Config

end SingleTable
