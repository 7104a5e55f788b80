import SingleTable.Proofs.Sql.Insertion
import SingleTable.Proofs.Sql.Request

/-! # Statements about the rows of one key

What a database makes of the text of an `UPDATE` of one column and of a `SELECT` by key, without
knowing which call it comes from.

* `Equation`: a column and a value, as they are assigned or compared.
* `Assignment`, `Lookup`: the two statements; `Assignment.ofCommand?` and `Lookup.ofCommand?` find
  them in a text with its parameters.
* `Equation.holds`, `Assignment.run`, `Lookup.admits`: what they mean for rows.
* `Config.assignment_setDeleted`, `Config.lookup_selectById`: the statements that a configuration
  issues.
-/

namespace SingleTable

/-! ## Stored values -/

namespace Record

/-- Stores a value in a column. -/
def put (key : String) (j : Json) : Record → Record
  | [] => [(key, j)]
  | (k, v) :: r => if k = key then (k, j) :: r else (k, v) :: put key j r

theorem get?_cons (k : String) (v : Json) (r : Record) (key : String) :
    get? ((k, v) :: r) key = if key = k then some v else r.get? key := by
  rw [get?, List.lookup_cons]
  by_cases h : key = k
  · rw [if_pos h, h, beq_self_eq_true]
  · rw [if_neg h, beq_false_of_ne h]
    rfl

theorem get?_put_self (r : Record) (key : String) (j : Json) : (r.put key j).get? key = some j := by
  induction r with
  | nil => rw [put, get?_cons, if_pos rfl]
  | cons f r ih =>
    rw [put]
    split
    · rename_i h
      rw [get?_cons, if_pos h.symm]
    · rename_i h
      rw [get?_cons, if_neg (Ne.symm h), ih]

theorem get?_put_of_ne (r : Record) {key other : String} (h : other ≠ key) (j : Json) :
    (r.put key j).get? other = r.get? other := by
  induction r with
  | nil => rw [put, get?_cons, if_neg h]
  | cons f r ih =>
    rw [put]
    split
    · rename_i hk
      rw [get?_cons, get?_cons, hk, if_neg h, if_neg h]
    · rw [get?_cons, get?_cons, ih]

end Record

namespace Sql

/-! ## Equations -/

/-- A value is a placeholder; a default is asked for by its word. -/
def valueLexeme : Param → Lexeme Param
  | .default => .keyword .default
  | p => .placeholder p

def value? : Lexeme Param → Option Param
  | .keyword .default => some .default
  | .placeholder p => some p
  | _ => none

theorem value?_valueLexeme (p : Param) : value? (valueLexeme p) = some p := by cases p <;> rfl

structure Equation where
  column : String
  value : Param

namespace Equation

def lexemes (e : Equation) : List (Lexeme Param) :=
  [.quoted e.column.toList, .comparison .equals, valueLexeme e.value]

def read? : List (Lexeme Param) → Option (Equation × List (Lexeme Param))
  | .quoted s :: .comparison .equals :: x :: rest =>
    (value? x).map fun p => (⟨String.ofList s, p⟩, rest)
  | _ => none

theorem read?_lexemes (e : Equation) (rest : List (Lexeme Param)) :
    read? (e.lexemes ++ rest) = some (e, rest) := by
  change (value? (valueLexeme e.value)).map _ = _
  rw [value?_valueLexeme, Option.map_some, String.ofList_toList]
  rfl

/-- Is the stored value equal to the one compared with? It is not if one of them is null. -/
def holds (e : Equation) (r : Record) : Bool := (r.get e.column).compareParam? e.value == some .eq

end Equation

/-! ## Assignments -/

/-- One column of the rows of one key gets a value. -/
structure Assignment where
  table : Path
  set : Equation
  key : Equation

namespace Assignment

def lexemes (a : Assignment) : List (Lexeme Param) :=
  .keyword .update :: (segmentsLexemes a.table ++ .keyword .set ::
    (a.set.lexemes ++ .keyword .where :: (a.key.lexemes ++ [.symbol .semicolon])))

def read? : List (Lexeme Param) → Option Assignment
  | .keyword .update :: xs => do
    let (table, .keyword .set :: xs) ← readPath? xs | none
    let (set, .keyword .where :: xs) ← Equation.read? xs | none
    let (key, [.symbol .semicolon]) ← Equation.read? xs | none
    return ⟨table, set, key⟩
  | _ => none

theorem read?_lexemes {a : Assignment} (h : a.table ≠ []) : read? a.lexemes = some a := by
  have htable := readPath?_lexemes h (.keyword .set ::
    (a.set.lexemes ++ .keyword .where :: (a.key.lexemes ++ [.symbol .semicolon]))) (by simp)
  rw [lexemes, read?, htable]
  simp only [Option.bind_eq_bind, Option.bind_some, Equation.read?_lexemes]
  rfl

def ofCommand? (d : Dialect) (command : Command) : Option Assignment :=
  (command.lexemes? d).bind read?

/-- What is assigned is stored in the rows of the key, and every other row stays. -/
def apply (a : Assignment) (r : Record) : Record :=
  if a.key.holds r then r.put a.set.column a.set.value.toJson else r

def run (a : Assignment) (rows : List Record) : List Record := rows.map a.apply

end Assignment

/-! ## Lookups -/

/-- The first row of a key; of the rows in which a column is null, if one is named. -/
structure Lookup where
  table : Path
  key : Equation
  missing : Option String

namespace Lookup

def missingLexemes (missing : Option String) : List (Lexeme Param) :=
  (missing.elim [] fun column =>
    [.keyword .and, .quoted column.toList, .keyword .is, .keyword .null]) ++
    [.keyword .limit, .number 1, .symbol .semicolon]

def lexemes (l : Lookup) : List (Lexeme Param) :=
  .keyword .select :: .symbol .star :: .keyword .from :: (segmentsLexemes l.table ++
    .keyword .where :: (l.key.lexemes ++ missingLexemes l.missing))

def readMissing? : List (Lexeme Param) → Option (Option String)
  | [.keyword .limit, .number 1, .symbol .semicolon] => some none
  | [.keyword .and, .quoted s, .keyword .is, .keyword .null, .keyword .limit, .number 1,
      .symbol .semicolon] => some (some (String.ofList s))
  | _ => none

def read? : List (Lexeme Param) → Option Lookup
  | .keyword .select :: .symbol .star :: .keyword .from :: xs => do
    let (table, .keyword .where :: xs) ← readPath? xs | none
    let (key, xs) ← Equation.read? xs
    let missing ← readMissing? xs
    return ⟨table, key, missing⟩
  | _ => none

theorem readMissing?_lexemes (missing : Option String) :
    readMissing? (missingLexemes missing) = some missing := by
  cases missing with
  | none => rfl
  | some column =>
    change some (some (String.ofList column.toList)) = _
    rw [String.ofList_toList]

theorem read?_lexemes {l : Lookup} (h : l.table ≠ []) : read? l.lexemes = some l := by
  have htable := readPath?_lexemes h
    (.keyword .where :: (l.key.lexemes ++ missingLexemes l.missing)) (by simp)
  rw [lexemes, read?, htable]
  simp only [Option.bind_eq_bind, Option.bind_some, Equation.read?_lexemes, readMissing?_lexemes]
  rfl

def ofCommand? (d : Dialect) (command : Command) : Option Lookup :=
  (command.lexemes? d).bind read?

/-- May the row be the one that is found? -/
def admits (l : Lookup) (r : Record) : Bool :=
  l.key.holds r && l.missing.all fun column => (r.get column).isNull

end Lookup

end Sql

/-! ## Statements of a configuration -/

namespace Config
open Sql Sql.Fragment

theorem segmentsLexemes_of_isWord {name : String} (h : Identifier.IsWord name) :
    (segmentsLexemes [name.toList] : List (Lexeme Param)) = [.quoted name.toList] := by
  rw [← lexemes_ofName h, ← Identifier.segments_of_isWord h]
  exact (List.append_nil _).symm

theorem lexemes_matching {column : String} (h : Identifier.IsWord column) (p : Param) :
    (matching column p).lexemes = (Equation.mk column p).lexemes := by
  have hvalue : (ofParam p).lexemes = [valueLexeme p] := by cases p <;> rfl
  rw [matching, lexemes_spaced, List.flatMap_cons, List.flatMap_cons, List.flatMap_cons,
    lexemes_ofName h, hvalue]
  rfl

theorem lexemes_setDeleted {c : Config} {deleted : String} (htable : Identifier.IsWord c.table)
    (hkey : Identifier.IsWord c.idColumn) (hdeleted : Identifier.IsWord deleted)
    (deletion id : Param) :
    (c.setDeleted deleted deletion id).lexemes =
      (Assignment.mk [c.table.toList] ⟨deleted, deletion⟩ ⟨c.idColumn, id⟩).lexemes := by
  simp only [setDeleted, ended, lexemes_append, lexemes_spaced, List.flatMap_cons,
    List.flatMap_nil, lexemes_matching hdeleted, lexemes_matching hkey, lexemes_ofName htable,
    Assignment.lexemes, segmentsLexemes_of_isWord htable]
  rfl

theorem lexemes_selectById {c : Config} (htable : Identifier.IsWord c.table)
    (hkey : Identifier.IsWord c.idColumn)
    (hdeleted : ∀ deleted ∈ c.softDeleteColumn?, Identifier.IsWord deleted) (id : Param) :
    (c.selectById id).lexemes =
      (Lookup.mk [c.table.toList] ⟨c.idColumn, id⟩ c.softDeleteColumn?).lexemes := by
  unfold selectById
  cases hsoft : c.softDeleteColumn? with
  | none =>
    simp only [Option.map_none, ended, lexemes_append, lexemes_spaced, List.flatMap_cons,
      List.flatMap_nil, lexemes_matching hkey, lexemes_ofName htable, Lookup.lexemes,
      segmentsLexemes_of_isWord htable]
    rfl
  | some deleted =>
    have hd := lexemes_ofName (hdeleted deleted hsoft)
    simp only [Option.map_some, ended, Fragment.tail, lexemes_append, lexemes_cons, lexemes_spaced,
      List.flatMap_cons, List.flatMap_nil, lexemes_matching hkey, lexemes_ofName htable, hd,
      Lookup.lexemes, segmentsLexemes_of_isWord htable]
    rfl

/-- What is set for a hidden or a restored row is its deletion time, in the rows of its key. -/
theorem assignment_setDeleted {c : Config} {deleted : String} (htable : Identifier.IsWord c.table)
    (hkey : Identifier.IsWord c.idColumn) (hdeleted : Identifier.IsWord deleted)
    (deletion id : Param) :
    Assignment.ofCommand? c.dialect (c.command (c.setDeleted deleted deletion id)) =
      some ⟨[c.table.toList], ⟨deleted, deletion⟩, ⟨c.idColumn, id⟩⟩ := by
  rw [Assignment.ofCommand?, lexemes?_of_ended c (c.isClause_setDeleted deleted deletion id),
    Option.bind_some, lexemes_setDeleted htable hkey hdeleted]
  exact Assignment.read?_lexemes (List.cons_ne_nil _ _)

theorem lookup_selectById {c : Config} (htable : Identifier.IsWord c.table)
    (hkey : Identifier.IsWord c.idColumn)
    (hdeleted : ∀ deleted ∈ c.softDeleteColumn?, Identifier.IsWord deleted) (id : Param) :
    Lookup.ofCommand? c.dialect (c.command (c.selectById id)) =
      some ⟨[c.table.toList], ⟨c.idColumn, id⟩, c.softDeleteColumn?⟩ := by
  rw [Lookup.ofCommand?, lexemes?_of_ended c (c.isClause_selectById id), Option.bind_some,
    lexemes_selectById htable hkey hdeleted]
  exact Lookup.read?_lexemes (List.cons_ne_nil _ _)

end Config

end SingleTable
