import SingleTable.Pattern.Like
import SingleTable.Query
import SingleTable.Sql.Fragment

/-! # Queries as SQL

* `Leaf.sql`, `Node.sql`: comparisons and groups; an empty group inside a filter is `1 = 1`, and
  membership in an empty list is `1 = 0`.
* `Operand.likeParam`: the pattern that is bound for a text, where a star is a wildcard too.
* `Sql.condition?`: the condition of a filter, none for the filter without nodes.
* `Sql.order?`, `Sql.tail`, `Sql.select`: the order, what follows the condition, the whole query.
-/

namespace SingleTable
open Sql

/-! ## Patterns -/

def Operand.likeParam : Operand → Param
  | text s | raw (.string s) => .text (String.ofList (Like.starToPercent s.toList))
  | x => x.toParam

theorem Operand.likeParam_ne_default (x : Operand) : x.likeParam ≠ .default := by
  unfold likeParam
  split
  · nofun
  · nofun
  · exact x.toParam_ne_default

/-! ## Conditions -/

/-- A column or a placeholder, cut to its date if asked for. -/
def Sql.dated (dateCast : Bool) (f : Fragment) : Fragment :=
  if dateCast then Fragment.call .date [f] else f

def Sql.datedText (expr : String) : String :=
  Word.date.text ++ Mark.open.text ++ expr ++ Mark.close.text

def Sql.truth (b : Bool) : Fragment :=
  Fragment.spaced [[.number 1], [.operator .equals], [.number (if b then 1 else 0)]]

namespace Leaf

def bound (l : Leaf) (p : Param) : Fragment := dated l.dateCast (Fragment.ofParam p)

def column (l : Leaf) : Fragment := dated l.dateCast (Fragment.ofName l.key)

def sql (l : Leaf) : Fragment :=
  match l.condition, l.operand with
  | .isNull, _ | .isNotNull, _ => Fragment.spaced [l.column, [.operator l.condition]]
  | .isIn, .many [] => truth false
  | .isIn, .many xs =>
    Fragment.spaced [l.column, [.operator .isIn],
      Fragment.enclosed (Fragment.listed (xs.map fun x => l.bound x.toParam))]
  | .like, .one x | .notLike, .one x =>
    Fragment.spaced [l.column, [.operator l.condition], l.bound x.likeParam]
  | c, .one x => Fragment.spaced [l.column, [.operator c], l.bound x.toParam]
  | _, .many _ => truth false

end Leaf

mutual
def Node.sql : Node → Fragment
  | .leaf l => l.sql
  | .group _ [] => truth true
  | .group _ (n :: rest) => Fragment.enclosed (n.sql ++ Node.sqlRest rest)
/-- Nodes after the first one, each behind its chain. -/
def Node.sqlRest : List Node → Fragment
  | [] => []
  | n :: rest => .mark .blank :: .chain n.chain :: .mark .blank :: (n.sql ++ Node.sqlRest rest)
end

namespace Sql

def condition? : List Node → Option Fragment
  | [] => none
  | n :: rest => some (n.sql ++ Node.sqlRest rest)

def whereClause (filter : List Node) : Option Fragment :=
  (condition? filter).map fun f => Fragment.spaced [.ofWord .where, f]

/-! ## Queries -/

def orderTerm (t : OrderTerm) : Fragment :=
  Fragment.spaced [.ofName t.key, [.direction t.direction]]

def order? (order : List OrderTerm) : Option Fragment :=
  if order.isEmpty then none
  else some (Fragment.spaced [.ofWord .orderBy, Fragment.listed (order.map orderTerm)])

def counted (w : Word) (n : Nat) : Fragment := Fragment.spaced [.ofWord w, [.number n]]

/-- The order and the page of a query, each with a blank before it. -/
def tail (q : Query) : Fragment :=
  Fragment.tail (order? q.order) ++ Fragment.tail (q.limit.map (counted .limit)) ++
    Fragment.tail (q.offset.map (counted .offset))

def select (table : String) (q : Query) : Fragment :=
  Fragment.ended (Fragment.spaced
      [.ofWord .select, [.mark .star], .ofWord .source, .ofName table] ++
    Fragment.tail (whereClause q.filter) ++ tail q)

end Sql

end SingleTable
