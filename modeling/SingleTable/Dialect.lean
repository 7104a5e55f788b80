import SingleTable.Identifier
import SingleTable.Text.Digits

/-! # Dialects

What the two kinds of databases spell differently: quotes around identifiers, placeholders, whether
a write hands rows back, and where missing values are sorted.
-/

namespace SingleTable

inductive Dialect
  | mysql
  | postgres
deriving DecidableEq

namespace Dialect

def name : Dialect → String
  | mysql => "mysql"
  | postgres => "postgres"

def ofName? : String → Option Dialect
  | "mysql" => some mysql
  | "postgres" => some postgres
  | _ => none

def quoteChar : Dialect → Char
  | mysql => '\x60'
  | postgres => '"'

def quote (d : Dialect) (name : String) : String := Identifier.quote d.quoteChar name

/-- Postgres numbers its placeholders from one; MySQL goes by their position. -/
def placeholder (d : Dialect) (index : Nat) : String :=
  match d with
  | mysql => "?"
  | postgres => String.ofList ('$' :: Text.decimal index)

def supportsReturning : Dialect → Bool
  | mysql => false
  | postgres => true

/-- Does a missing value come before the others in ascending order? -/
def nullsFirst : Dialect → Bool
  | mysql => true
  | postgres => false

end Dialect

end SingleTable
