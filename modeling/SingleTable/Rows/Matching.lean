import SingleTable.Rows.Compare
import SingleTable.Sql.Filter

/-! # Filters on rows in memory

A filter asks of a row what its condition asks of a table. A comparison with null holds of no row,
and `AND` binds tighter than `OR`.

* `Leaf.holds`, `Node.holds`: does a row satisfy a comparison, or a node?
* `Rows.holds`, `Rows.filter`: does it satisfy a filter, and which rows do?
* `Rows.sort`: rows in the order of a list of terms, equal ones as they were.
* `Query.apply`: the rows that a query selects.
-/

namespace SingleTable

/-! ## Comparisons -/

def Condition.admits : Condition → Ordering → Bool
  | equals, o => o == .eq
  | notEquals, o => o != .eq
  | greater, o => o == .gt
  | less, o => o == .lt
  | greaterOrEqual, o => o != .lt
  | lessOrEqual, o => o != .gt
  | _, _ => false

namespace Leaf

/-- The stored value that the leaf looks at, cut to its date if asked for. -/
def field (l : Leaf) (r : Record) : Json :=
  let j := r.get l.key
  if l.dateCast then j.calendarDate?.elim .null .string else j

/-- The parameter that the leaf compares with, cut to its date if asked for. -/
def castParam (l : Leaf) (p : Param) : Param :=
  if l.dateCast then p.calendarDate?.elim .null .text else p

def holds (l : Leaf) (r : Record) : Bool :=
  let field := l.field r
  match l.condition, l.operand with
  | .isNull, _ => field.isNull
  | .isNotNull, _ => !field.isNull
  | .isIn, .many xs => xs.any fun x => field.compareParam? (l.castParam x.toParam) == some .eq
  | .like, .one x => field.likeParam? (l.castParam x.likeParam) == some true
  | .notLike, .one x => field.likeParam? (l.castParam x.likeParam) == some false
  | c, .one x => (field.compareParam? (l.castParam x.toParam)).any c.admits
  | _, .many _ => false

end Leaf

mutual
def Node.holds (r : Record) : Node → Bool
  | .leaf l => l.holds r
  | .group _ [] => true
  | .group _ (n :: rest) => Node.holdsRun r (n.holds r) rest
/-- Nodes after a run of nodes joined by `AND`, of which `run` tells whether all of them hold; an
`OR` begins the next run. -/
def Node.holdsRun (r : Record) (run : Bool) : List Node → Bool
  | [] => run
  | n :: rest =>
    match n.chain with
    | .and => Node.holdsRun r (run && n.holds r) rest
    | .or => run || Node.holdsRun r (n.holds r) rest
end

namespace Rows

/-- A filter without nodes holds of every row. -/
def holds (filter : List Node) (r : Record) : Bool :=
  match filter with
  | [] => true
  | n :: rest => Node.holdsRun r (n.holds r) rest

def filter (filter : List Node) (rows : List Record) : List Record := rows.filter (holds filter)

/-! ## Order -/

/-- The ascending order of two stored values; those that cannot be compared go by their texts. -/
def ascending (d : Dialect) (a b : Json) : Ordering :=
  match a.isNull, b.isNull with
  | true, true => .eq
  | true, false => if d.nullsFirst then .lt else .gt
  | false, true => if d.nullsFirst then .gt else .lt
  | false, false => (a.compareParam? (.ofJson b)).getD (Text.compare a.storedText b.storedText)

def compareBy (d : Dialect) (t : OrderTerm) (a b : Record) : Ordering :=
  let o := ascending d (a.get t.key) (b.get t.key)
  match t.direction with
  | .ascending => o
  | .descending => o.swap

def compare (d : Dialect) (order : List OrderTerm) (a b : Record) : Ordering :=
  order.foldr (fun t o => (compareBy d t a b).then o) .eq

def sort (d : Dialect) (order : List OrderTerm) (rows : List Record) : List Record :=
  if order.isEmpty then rows else rows.mergeSort fun a b => compare d order a b != .gt

def page (offset limit : Option Nat) (rows : List Record) : List Record :=
  let rest := rows.drop (offset.getD 0)
  match limit with
  | some n => rest.take n
  | none => rest

end Rows

def Query.apply (q : Query) (d : Dialect) (rows : List Record) : List Record :=
  Rows.page q.offset q.limit (Rows.sort d q.order (Rows.filter q.filter rows))

end SingleTable
