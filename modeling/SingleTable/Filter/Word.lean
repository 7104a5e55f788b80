import SingleTable.Text.Blank

/-! # The words of a filter

* `Condition`: the comparison that a leaf makes.
* `Chain`: the connective that joins a node to the nodes before it.
* `Direction`: the way a sort goes.

Each has the tokens that name it, in any case and with blanks around them, and one SQL spelling.
-/

namespace SingleTable

inductive Condition
  | equals
  | notEquals
  | greater
  | less
  | greaterOrEqual
  | lessOrEqual
  | like
  | notLike
  | isIn
  | isNull
  | isNotNull
deriving DecidableEq

namespace Condition

def ofWord? : String → Option Condition
  | "=" | "==" | "equal" | "equals" | "is" => some equals
  | "!" | "!=" | "<>" | "not" | "not_equal" | "not_equals" | "is_not" => some notEquals
  | "gt" | "greater_than" | ">" => some greater
  | "lt" | "less_than" | "<" => some less
  | "gte" | ">=" => some greaterOrEqual
  | "lte" | "<=" => some lessOrEqual
  | "like" | "lk" => some like
  | "not_like" | "nl" => some notLike
  | "in" | "[]" | "()" => some isIn
  | "is_null" => some isNull
  | "is_not_null" => some isNotNull
  | _ => none

def ofToken? (s : String) : Option Condition := ofWord? (Text.token s)

def sql : Condition → String
  | equals => "="
  | notEquals => "<>"
  | greater => ">"
  | less => "<"
  | greaterOrEqual => ">="
  | lessOrEqual => "<="
  | like => "LIKE"
  | notLike => "NOT LIKE"
  | isIn => "IN"
  | isNull => "IS NULL"
  | isNotNull => "IS NOT NULL"

end Condition

inductive Chain
  | and
  | or
deriving DecidableEq

namespace Chain

def ofWord? : String → Option Chain
  | "and" | "&" | "&&" => some .and
  | "or" | "|" | "||" => some .or
  | _ => none

def ofToken? (s : String) : Option Chain := ofWord? (Text.token s)

def sql : Chain → String
  | .and => "AND"
  | .or => "OR"

end Chain

inductive Direction
  | ascending
  | descending
deriving DecidableEq

namespace Direction

def ofWord? : String → Option Direction
  | "asc" | "ascending" => some ascending
  | "desc" | "descending" => some descending
  | _ => none

def ofToken? (s : String) : Option Direction := ofWord? (Text.token s)

def sql : Direction → String
  | ascending => "ASC"
  | descending => "DESC"

end Direction

end SingleTable
