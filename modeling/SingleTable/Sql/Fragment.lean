import SingleTable.Dialect
import SingleTable.Filter.Word
import SingleTable.Param.Basic

/-! # Fragments of statements

A statement is put together from tokens, and values are tokens too. Writing it down turns each
value into a placeholder and puts it on the list of parameters, so that no value reaches the text.

* `Token`, `Fragment`: what statements are made of; the same for both dialects.
* `Fragment.params`: the bound values from left to right.
* `Fragment.write`: the text, with placeholders counted on from a number.
* `Command`: a text with its parameters; `Binder` writes fragments one after the other and keeps
  count of the parameters bound so far.
-/

namespace SingleTable.Sql

inductive Word
  | select
  | source
  | where
  | orderBy
  | limit
  | offset
  | count
  | named
  | insertInto
  | values
  | update
  | assign
  | deleteFrom
  | returning
  | default
  | date
  | point
deriving DecidableEq

def Word.text : Word → String
  | select => "SELECT"
  | source => "FROM"
  | .where => "WHERE"
  | orderBy => "ORDER BY"
  | limit => "LIMIT"
  | offset => "OFFSET"
  | count => "COUNT"
  | named => "AS"
  | insertInto => "INSERT INTO"
  | values => "VALUES"
  | update => "UPDATE"
  | assign => "SET"
  | deleteFrom => "DELETE FROM"
  | returning => "RETURNING"
  | default => "DEFAULT"
  | date => "DATE"
  | point => "POINT"

inductive Mark
  | blank
  | open
  | close
  | comma
  | semicolon
  | star
deriving DecidableEq

def Mark.text : Mark → String
  | blank => " "
  | .open => "("
  | close => ")"
  | comma => ","
  | semicolon => ";"
  | star => "*"

inductive Token
  | word (w : Word)
  | mark (m : Mark)
  | operator (c : Condition)
  | chain (c : Chain)
  | direction (d : Direction)
  | name (s : String)
  | number (n : Nat)
  | param (p : Param)

abbrev Fragment := List Token

/-! ## Putting fragments together -/

namespace Fragment

def ofParam : Param → Fragment
  | .default => [.word .default]
  | p => [.param p]

def ofWord (w : Word) : Fragment := [.word w]

def ofName (s : String) : Fragment := [.name s]

def spaced (parts : List Fragment) : Fragment := [.mark .blank].intercalate parts

def listed (parts : List Fragment) : Fragment := [.mark .comma, .mark .blank].intercalate parts

def enclosed (f : Fragment) : Fragment := .mark .open :: f ++ [.mark .close]

def call (w : Word) (arguments : List Fragment) : Fragment :=
  .word w :: enclosed (listed arguments)

/-- A part that may be missing, with a blank before it. -/
def tail : Option Fragment → Fragment
  | some f => .mark .blank :: f
  | none => []

def ended (f : Fragment) : Fragment := f ++ [.mark .semicolon]

end Fragment

/-! ## Writing -/

/-- The text of a token, where a value is written as the placeholder with number `index`. -/
def Token.text (d : Dialect) (index : Nat) : Token → String
  | word w => w.text
  | mark m => m.text
  | operator c => c.sql
  | chain c => c.sql
  | direction o => o.sql
  | name s => d.quote s
  | number n => String.ofList (Text.decimal n)
  | param _ => d.placeholder index

def Token.param? : Token → Option Param
  | param p => some p
  | _ => none

namespace Fragment

def params (f : Fragment) : List Param := f.filterMap Token.param?

/-- The text of a fragment, before which `bound` parameters have been numbered. -/
def write (d : Dialect) : Nat → Fragment → String
  | _, [] => ""
  | bound, t :: rest =>
    t.text d (bound + 1) ++ write d (if t.param?.isSome then bound + 1 else bound) rest

@[simp] theorem params_nil : params [] = [] := rfl

@[simp] theorem params_append (f g : Fragment) : params (f ++ g) = params f ++ params g := by
  simp [params]

/-- The second part goes on counting where the first one ends. -/
theorem write_append (d : Dialect) (bound : Nat) (f g : Fragment) :
    write d bound (f ++ g) = write d bound f ++ write d (bound + (params f).length) g := by
  induction f generalizing bound with
  | nil => simp [write]
  | cons t f ih =>
    cases h : t.param? with
    | none => simp [write, params, h, ih, String.append_assoc]
    | some p => simp [write, params, h, ih, String.append_assoc, Nat.add_comm, Nat.add_left_comm]

end Fragment

structure Command where
  sql : String
  params : List Param

def Fragment.command (d : Dialect) (f : Fragment) : Command := ⟨write d 0 f, params f⟩

/-! ## Writing one fragment after the other -/

/-- The parameters bound so far, after `offset` that were bound elsewhere. -/
structure Binder where
  dialect : Dialect
  offset : Nat := 0
  params : List Param := []

def Binder.write (b : Binder) (f : Fragment) : String × Binder :=
  (f.write b.dialect (b.offset + b.params.length), { b with params := b.params ++ f.params })

end SingleTable.Sql
