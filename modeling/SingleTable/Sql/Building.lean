import SingleTable.Sql.Statement

/-! # Building statements

Statements as they are issued: texts with holes, and values that are bound before the holes are
filled. The placeholder of a value tells how many were bound before it, so it is right only if the
values are bound in the order in which their holes stand in the text.

* `Build`: a step that may bind values; `Binder.bind` binds one.
* `Build.leaf`, `Build.node`, `Build.condition?`: comparisons, groups and filters.
* `Build.cell`: the value of a column.
* `Statement.select`, `selectById`, `count`, `insert`, `update`, `hardDelete`, `setDeleted`: the
  statements that a configuration issues; `Statement.query` is a query as it stands.
-/

namespace SingleTable.Sql

/-- A default is written out; any other value gets the next placeholder. -/
def Binder.bind (b : Binder) (p : Param) : String × Binder :=
  match p with
  | .default => ("DEFAULT", b)
  | p =>
    let bound := { b with params := b.params ++ [p] }
    (b.dialect.placeholder (b.offset + bound.params.length), bound)

abbrev Build := StateM Binder

namespace Build

def bind (p : Param) : Build String := fun b => b.bind p

def dialect : Build Dialect := do return (← get).dialect

def list {α : Type} (step : α → Build String) (xs : List α) : Build String := do
  return ", ".intercalate (← xs.mapM step)

/-! ## Conditions -/

def cast (dateCast : Bool) (text : String) : String := if dateCast then datedText text else text

def operand (l : Leaf) (p : Param) : Build String := do
  return cast l.dateCast (← bind p)

def comparison (column : String) (l : Leaf) : Build String :=
  match l.condition, l.operand with
  | .isNull, _ | .isNotNull, _ => return column ++ " " ++ l.condition.sql
  | .isIn, .many [] => return "1 = 0"
  | .isIn, .many xs => do
    let placeholders ← list (fun x => operand l x.toParam) xs
    return column ++ " IN (" ++ placeholders ++ ")"
  | .like, .one x | .notLike, .one x => do
    let placeholder ← operand l x.likeParam
    return column ++ " " ++ l.condition.sql ++ " " ++ placeholder
  | c, .one x => do
    let placeholder ← operand l x.toParam
    return column ++ " " ++ c.sql ++ " " ++ placeholder
  | _, .many _ => return "1 = 0"

def leaf (l : Leaf) : Build String := do
  comparison (cast l.dateCast ((← dialect).quote l.key)) l

mutual
def node : Node → Build String
  | .leaf l => leaf l
  | .group _ [] => return "1 = 1"
  | .group _ (n :: rest) => do
    let first ← node n
    let others ← following rest
    return "(" ++ first ++ others ++ ")"
def following : List Node → Build String
  | [] => return ""
  | n :: rest => do
    let text ← node n
    let others ← following rest
    return " " ++ n.chain.sql ++ " " ++ text ++ others
end

def condition? : List Node → Build (Option String)
  | [] => return none
  | n :: rest => do
    let first ← node n
    let others ← following rest
    return some (first ++ others)

def whereClause (filter : List Node) : Build String := do
  match ← condition? filter with
  | none => return ""
  | some condition => return " WHERE " ++ condition

/-! ## Values -/

def cell (c : Catalog) (name : String) (j : Json) : Build String :=
  match c.type? name, j with
  | some .point, .object fields => do
    let x ← bind (.ofJson (Record.get fields "x"))
    let y ← bind (.ofJson (Record.get fields "y"))
    return "POINT(" ++ x ++ ", " ++ y ++ ")"
  | some t, j => bind (t.param j)
  | none, j => bind (.ofJson j)

def value (catalog : Catalog) (row : Record) (name : String) : Build String :=
  match row.get? name with
  | some j => cell catalog name j
  | none => bind .default

def tuple (catalog : Catalog) (columns : List String) (row : Record) : Build String := do
  let values ← list (value catalog row) columns
  return "(" ++ values ++ ")"

def assignment (d : Dialect) (catalog : Catalog) (field : String × Json) : Build String := do
  let placeholder ← cell catalog field.1 field.2
  return d.quote field.1 ++ " = " ++ placeholder

end Build

/-- Writes the condition of a filter, if it has one, and binds its values after those bound so
far. -/
def Binder.writeCondition (b : Binder) (filter : List Node) : Option String × Binder :=
  (Build.condition? filter).run b

/-! ## Texts without values -/

def namesText (d : Dialect) (names : List String) : String := ", ".intercalate (names.map d.quote)

def orderText (d : Dialect) (order : List OrderTerm) : String :=
  if order.isEmpty then ""
  else " ORDER BY " ++
    ", ".intercalate (order.map fun t => d.quote t.key ++ " " ++ t.direction.sql)

def countText (word : String) : Option Nat → String
  | some n => word ++ String.ofList (Text.decimal n)
  | none => ""

def tailText (d : Dialect) (q : Query) : String :=
  orderText d q.order ++ countText " LIMIT " q.limit ++ countText " OFFSET " q.offset

def returningText (d : Dialect) (columns : List String) : String :=
  if columns.isEmpty || !d.supportsReturning then "" else " RETURNING " ++ namesText d columns

/-- The text of a statement with the values that were bound for it. -/
def Build.command (d : Dialect) (step : Build String) : Command :=
  let (sql, b) := step.run { dialect := d }
  ⟨sql, b.params⟩

end SingleTable.Sql

/-! ## Statements -/

namespace SingleTable.Statement
open Sql

def query (d : Dialect) (table : String) (q : Query) : Command := Build.command d do
  let condition ← Build.whereClause q.filter
  return "SELECT * FROM " ++ d.quote table ++ condition ++ tailText d q ++ ";"

variable (c : Config)

def selectById (id : Param) : Command := Build.command c.dialect do
  let placeholder ← Build.bind id
  let live := match c.softDeleteColumn? with
    | some deleted => " AND " ++ c.dialect.quote deleted ++ " IS NULL"
    | none => ""
  return "SELECT * FROM " ++ c.dialect.quote c.table ++ " WHERE " ++ c.dialect.quote c.idColumn ++
    " = " ++ placeholder ++ live ++ " LIMIT 1;"

def select (q : Query) : Command :=
  query c.dialect c.table { q with filter := c.liveFilter q.filter }

def count (filter : List Node) : Command := Build.command c.dialect do
  let condition ← Build.whereClause (c.liveFilter filter)
  return "SELECT COUNT(*) AS " ++ c.dialect.quote "count" ++ " FROM " ++ c.dialect.quote c.table ++
    condition ++ ";"

def insert (catalog : Catalog) (rows : List Record) (returning : List String) :
    Except Refusal Command :=
  match Config.suppliedColumns catalog rows with
  | [] => .error .nothingToInsert
  | columns => .ok <| Build.command c.dialect do
    let tuples ← Build.list (Build.tuple catalog columns) rows
    return "INSERT INTO " ++ c.dialect.quote c.table ++ " (" ++ namesText c.dialect columns ++
      ") VALUES " ++ tuples ++ returningText c.dialect returning ++ ";"

/-- The assignments are bound first, and the condition counts on. -/
def update (catalog : Catalog) (data : Record) (filter : List Node) (returning : List String) :
    Except Refusal Command :=
  match data with
  | [] => .error .nothingToUpdate
  | data => .ok <| Build.command c.dialect do
    let assignments ← Build.list (Build.assignment c.dialect catalog) data
    let condition ← Build.whereClause filter
    return "UPDATE " ++ c.dialect.quote c.table ++ " SET " ++ assignments ++ condition ++
      returningText c.dialect returning ++ ";"

def hardDelete (id : Param) : Command := Build.command c.dialect do
  let placeholder ← Build.bind id
  return "DELETE FROM " ++ c.dialect.quote c.table ++ " WHERE " ++ c.dialect.quote c.idColumn ++
    " = " ++ placeholder ++ ";"

/-- A deletion time hides the row, and null shows it again. -/
def setDeleted (deleted : String) (deletion id : Param) : Command := Build.command c.dialect do
  let value ← Build.bind deletion
  let key ← Build.bind id
  return "UPDATE " ++ c.dialect.quote c.table ++ " SET " ++ c.dialect.quote deleted ++ " = " ++
    value ++ " WHERE " ++ c.dialect.quote c.idColumn ++ " = " ++ key ++ ";"

end SingleTable.Statement
