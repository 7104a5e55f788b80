/-! # Regular expressions

The regular expressions that patterns are translated into, searched for anywhere in a text: letters,
dots and runs of dots, and the two ends of the text. No other syntax is read.

* `Expression`, `Expression.ends`: where a match can end, by where it begins.
* `Expression.read?`: the expression that a text writes.
* `Expression.search`: does the expression match somewhere? A text that is none matches nothing.
-/

namespace SingleTable

inductive Expression
  | empty
  | set (p : Char → Bool)
  | start
  | finish
  | sequence (a b : Expression)
  | repeated (a : Expression)

namespace Expression

/-! ## Matching -/

/-- The positions reached in at most `n` steps. -/
def within (step : List Nat → List Nat) : Nat → List Nat → List Nat
  | 0, ps => ps
  | n + 1, ps => within step n (ps ++ step ps).eraseDups

/-- A repetition needs no more steps than there are positions. -/
def ends (text : Array Char) : Expression → List Nat → List Nat
  | empty, ps => ps
  | set p, ps => (ps.filter fun i => text[i]?.any p).map (· + 1)
  | start, ps => ps.filter (· == 0)
  | finish, ps => ps.filter (· == text.size)
  | sequence a b, ps => ends text b (ends text a ps)
  | repeated a, ps => within (ends text a) (text.size + 1) ps

def occursIn (e : Expression) (text : String) : Bool :=
  let cs := text.toList.toArray
  !(ends cs e (List.range (cs.size + 1))).isEmpty

/-! ## Reading -/

/-- The characters that stand for themselves behind a backslash. -/
def special : List Char := "\\.+*?()|[]\x7b\x7d^$#&-~".toList

/-- The special characters that mean something without a backslash. -/
def operators : List Char := "\\.+*?()|[\x7b^$".toList

def literal (c : Char) : Expression := .set fun d => d == c

/-- The dot: any character, or any but a line feed. -/
def dot (dotAll : Bool) : Expression := .set fun c => dotAll || c != '\n'

def items (dotAll : Bool) : List Char → Option Expression
  | [] => some .empty
  | '^' :: cs => (items dotAll cs).map (.sequence .start)
  | '$' :: cs => (items dotAll cs).map (.sequence .finish)
  | '.' :: '*' :: cs => (items dotAll cs).map (.sequence (.repeated (dot dotAll)))
  | '.' :: cs => (items dotAll cs).map (.sequence (dot dotAll))
  | '\\' :: c :: cs =>
    if special.contains c then (items dotAll cs).map (.sequence (literal c)) else none
  | c :: cs =>
    if operators.contains c then none else (items dotAll cs).map (.sequence (literal c))

/-- With `(?s)` at the beginning, a dot is a line feed too. -/
def read? (pattern : String) : Option Expression :=
  match pattern.toList with
  | '(' :: '?' :: 's' :: ')' :: cs => items true cs
  | cs => items false cs

def search (text pattern : String) : Bool :=
  match read? pattern with
  | some e => e.occursIn text
  | none => false

end Expression

end SingleTable
