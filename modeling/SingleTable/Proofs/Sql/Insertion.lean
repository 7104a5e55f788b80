import SingleTable.Proofs.Sql.Request
import SingleTable.Proofs.Sql.SearchCondition

/-! # Insertions

What a database makes of the text of an `INSERT`, without knowing which rows it comes from.

* `Path`: the name of a table or a column, in parts.
* `Cell`: what a row has under one column: the column's default, a point, or a value.
* `Insertion`: a table, the columns listed, and rows of cells; with the columns to hand back.
* `Insertion.read?`, `Insertion.ofCommand?`: the insertion that lexemes are, or a text with its
  parameters.
* `Insertion.read?_lexemes`: an insertion is read off its own lexemes.
-/

namespace SingleTable.Sql

/-! ## Lists with commas -/

section Lists
variable {α : Type}

def listedLexemes (item : α → List (Lexeme Param)) : List α → List (Lexeme Param)
  | [] => []
  | a :: as => item a ++ as.flatMap fun b => .symbol .comma :: item b

def enclosedLexemes (item : α → List (Lexeme Param)) (as : List α) : List (Lexeme Param) :=
  .symbol .open :: (listedLexemes item as ++ [.symbol .close])

/-- At least one item, and what follows the last one. An `item` that gives back more than it was
given ends the reading. -/
def readListed? (item : List (Lexeme Param) → Option (α × List (Lexeme Param)))
    (xs : List (Lexeme Param)) : Option (List α × List (Lexeme Param)) :=
  match item xs with
  | some (a, .symbol .comma :: rest) =>
    if _h : rest.length < xs.length then
      (readListed? item rest).map fun (as, rest) => (a :: as, rest)
    else none
  | some (a, rest) => some ([a], rest)
  | none => none
termination_by xs.length

/-- Items in parentheses. -/
def readEnclosed? (item : List (Lexeme Param) → Option (α × List (Lexeme Param))) :
    List (Lexeme Param) → Option (List α × List (Lexeme Param))
  | .symbol .open :: xs =>
    match readListed? item xs with
    | some (as, .symbol .close :: rest) => some (as, rest)
    | _ => none
  | _ => none

/-- Lexemes with which neither a path nor a list goes on. -/
def Stops (xs : List (Lexeme Param)) : Prop :=
  xs.head? ≠ some (.symbol .dot) ∧ xs.head? ≠ some (.symbol .comma)

/-- An item is read off the head of every text that does not lengthen a path. -/
def IsReadBy (read : List (Lexeme Param) → Option (α × List (Lexeme Param)))
    (item : α → List (Lexeme Param)) (a : α) : Prop :=
  ∀ rest, rest.head? ≠ some (.symbol .dot) → read (item a ++ rest) = some (a, rest)

variable {read : List (Lexeme Param) → Option (α × List (Lexeme Param))}
  {item : α → List (Lexeme Param)}

theorem readListed?_comma {xs rest : List (Lexeme Param)} {a : α}
    (h : read xs = some (a, .symbol .comma :: rest)) (hlen : rest.length < xs.length) :
    readListed? read xs = (readListed? read rest).map fun (as, rest) => (a :: as, rest) := by
  rw [readListed?, h]
  dsimp only
  rw [dif_pos hlen]

theorem readListed?_last {xs rest : List (Lexeme Param)} {a : α}
    (h : read xs = some (a, rest)) (hstop : rest.head? ≠ some (.symbol .comma)) :
    readListed? read xs = some ([a], rest) := by
  rw [readListed?, h]
  split
  · rename_i h'
    obtain ⟨rfl, rfl⟩ := Prod.mk.inj (Option.some.inj h')
    exact absurd rfl hstop
  · rename_i h'
    obtain ⟨rfl, rfl⟩ := Prod.mk.inj (Option.some.inj h')
    rfl
  · rename_i h'
    cases h'

theorem readListed?_lexemes {as : List α} (hne : as ≠ []) (h : ∀ a ∈ as, IsReadBy read item a)
    {rest : List (Lexeme Param)} (hstop : Stops rest) :
    readListed? read (listedLexemes item as ++ rest) = some (as, rest) := by
  induction as with
  | nil => exact absurd rfl hne
  | cons a as ih =>
    have ha := h a List.mem_cons_self
    cases as with
    | nil =>
      have hlast : listedLexemes item [a] = item a := List.append_nil _
      rw [hlast]
      exact readListed?_last (ha rest hstop.1) hstop.2
    | cons b as =>
      have hcons : listedLexemes item (a :: b :: as) ++ rest =
          item a ++ .symbol .comma :: (listedLexemes item (b :: as) ++ rest) := by
        simp [listedLexemes]
      have hb := ih (List.cons_ne_nil b as) fun k hk => h k (List.mem_cons_of_mem a hk)
      have hread := ha (.symbol .comma :: (listedLexemes item (b :: as) ++ rest)) (by simp)
      have hlen : (listedLexemes item (b :: as) ++ rest).length <
          (item a ++ .symbol .comma :: (listedLexemes item (b :: as) ++ rest)).length := by
        simp only [List.length_append, List.length_cons]
        omega
      rw [hcons, readListed?_comma hread hlen, hb]
      rfl

theorem readEnclosed?_lexemes {as : List α} (hne : as ≠ []) (h : ∀ a ∈ as, IsReadBy read item a) :
    IsReadBy (readEnclosed? read) (enclosedLexemes item) as := by
  intro rest _
  have hstop : Stops (.symbol .close :: rest) := by simp [Stops]
  have hlist := readListed?_lexemes hne h hstop
  rw [enclosedLexemes, List.cons_append, List.append_assoc, List.singleton_append, readEnclosed?,
    hlist]

end Lists

/-! ## Names and cells -/

/-- The parts of a name; a part that is a star alone stands for everything. -/
abbrev Path := List (List Char)

def readPath? : List (Lexeme Param) → Option (Path × List (Lexeme Param))
  | .quoted s :: .symbol .dot :: xs => (readPath? xs).map fun (ss, rest) => (s :: ss, rest)
  | .quoted s :: rest => some ([s], rest)
  | .symbol .star :: .symbol .dot :: xs =>
    (readPath? xs).map fun (ss, rest) => (['*'] :: ss, rest)
  | .symbol .star :: rest => some ([['*']], rest)
  | _ => none

theorem readPath?_lexemes {ss : Path} (hne : ss ≠ []) : IsReadBy readPath? segmentsLexemes ss := by
  intro rest hdot
  induction ss with
  | nil => exact absurd rfl hne
  | cons s ss ih =>
    cases ss with
    | nil =>
      rw [segmentsLexemes, segmentLexeme, List.singleton_append]
      split
      · rename_i hs
        rw [hs, readPath?]
        rintro xs rfl
        exact hdot rfl
      · rw [readPath?]
        rintro xs rfl
        exact hdot rfl
    | cons t ss =>
      have hrest := ih (List.cons_ne_nil t ss)
      rw [segmentsLexemes, segmentLexeme, List.cons_append, List.cons_append]
      · split
        · rename_i hs
          rw [hs, readPath?, hrest]
          rfl
        · rw [readPath?, hrest]
          rfl
      · exact List.cons_ne_nil t ss

/-- A column is named by one identifier. -/
def readColumn? : List (Lexeme Param) → Option (String × List (Lexeme Param))
  | .quoted s :: rest => some (String.ofList s, rest)
  | _ => none

def columnLexemes (name : String) : List (Lexeme Param) := [.quoted name.toList]

theorem readColumn?_lexemes (name : String) : IsReadBy readColumn? columnLexemes name := by
  intro rest _
  change some (String.ofList name.toList, rest) = _
  rw [String.ofList_toList]

inductive Cell
  | default
  | point (x y : Param)
  | value (p : Param)

namespace Cell

def lexemes : Cell → List (Lexeme Param)
  | default => [.keyword .default]
  | point x y =>
    [.keyword .point, .symbol .open, .placeholder x, .symbol .comma, .placeholder y, .symbol .close]
  | value p => [.placeholder p]

def read? : List (Lexeme Param) → Option (Cell × List (Lexeme Param))
  | .keyword .default :: rest => some (default, rest)
  | .keyword .point :: .symbol .open :: .placeholder x :: .symbol .comma :: .placeholder y ::
      .symbol .close :: rest => some (point x y, rest)
  | .placeholder p :: rest => some (value p, rest)
  | _ => none

theorem read?_lexemes (x : Cell) : IsReadBy read? lexemes x := by
  intro rest _
  cases x <;> rfl

/-- The values bound for a cell. -/
def params : Cell → List Param
  | default => []
  | point x y => [x, y]
  | value p => [p]

end Cell

/-! ## The whole statement -/

structure Insertion where
  table : Path
  columns : List String
  rows : List (List Cell)
  returning : List Path

namespace Insertion

def endLexemes (returning : List Path) : List (Lexeme Param) :=
  (if returning.isEmpty then []
    else .keyword .returning :: listedLexemes segmentsLexemes returning) ++ [.symbol .semicolon]

def lexemes (i : Insertion) : List (Lexeme Param) :=
  .keyword .insert :: .keyword .into :: (segmentsLexemes i.table ++
    (enclosedLexemes columnLexemes i.columns ++ .keyword .values ::
      (listedLexemes (enclosedLexemes Cell.lexemes) i.rows ++ endLexemes i.returning)))

def readEnd? : List (Lexeme Param) → Option (List Path)
  | [.symbol .semicolon] => some []
  | .keyword .returning :: xs =>
    match readListed? readPath? xs with
    | some (returning, [.symbol .semicolon]) => some returning
    | _ => none
  | _ => none

def read? : List (Lexeme Param) → Option Insertion
  | .keyword .insert :: .keyword .into :: xs => do
    let (table, xs) ← readPath? xs
    let (columns, .keyword .values :: xs) ← readEnclosed? readColumn? xs | none
    let (rows, xs) ← readListed? (readEnclosed? Cell.read?) xs
    let returning ← readEnd? xs
    return ⟨table, columns, rows, returning⟩
  | _ => none

/-- A list without items cannot be written. -/
structure IsFilled (i : Insertion) : Prop where
  table : i.table ≠ []
  columns : i.columns ≠ []
  rows : i.rows ≠ []
  row : ∀ row ∈ i.rows, row ≠ []
  returning : ∀ path ∈ i.returning, path ≠ []

theorem readEnd?_lexemes {returning : List Path} (h : ∀ path ∈ returning, path ≠ []) :
    readEnd? (endLexemes returning) = some returning := by
  cases returning with
  | nil => rfl
  | cons path paths =>
    have hstop : Stops [.symbol .semicolon] := by simp [Stops]
    have hlist := readListed?_lexemes (List.cons_ne_nil path paths)
      (fun p hp => readPath?_lexemes (h p hp)) hstop
    change readEnd? (.keyword .returning ::
      (listedLexemes segmentsLexemes (path :: paths) ++ [.symbol .semicolon])) = _
    rw [readEnd?, hlist]

theorem stops_endLexemes (returning : List Path) : Stops (endLexemes returning) := by
  cases returning <;> simp [Stops, endLexemes]

theorem read?_lexemes {i : Insertion} (h : i.IsFilled) : read? i.lexemes = some i := by
  have hrows := readListed?_lexemes h.rows
    (fun row hrow => readEnclosed?_lexemes (h.row row hrow) fun x _ => x.read?_lexemes)
    (stops_endLexemes i.returning)
  have hcolumns := readEnclosed?_lexemes h.columns (fun name _ => readColumn?_lexemes name)
    (.keyword .values ::
      (listedLexemes (enclosedLexemes Cell.lexemes) i.rows ++ endLexemes i.returning)) (by simp)
  have htable := readPath?_lexemes h.table
    (enclosedLexemes columnLexemes i.columns ++ .keyword .values ::
      (listedLexemes (enclosedLexemes Cell.lexemes) i.rows ++ endLexemes i.returning))
    (by simp [enclosedLexemes])
  rw [lexemes, read?, htable]
  simp only [Option.bind_eq_bind, Option.bind_some, hcolumns, hrows, readEnd?_lexemes h.returning]
  rfl

/-! ## Values -/

theorem placeholders_listedLexemes {α : Type} (item : α → List (Lexeme Param)) (as : List α) :
    placeholders (listedLexemes item as) = as.flatMap fun a => placeholders (item a) := by
  cases as with
  | nil => rfl
  | cons a as =>
    have hrest : placeholders (as.flatMap fun b => .symbol .comma :: item b) =
        as.flatMap fun b => placeholders (item b) := by
      induction as with
      | nil => rfl
      | cons b as ih =>
        rw [List.flatMap_cons, placeholders_append, ih, List.flatMap_cons]
        rfl
    rw [listedLexemes, placeholders_append, hrest, List.flatMap_cons]

theorem placeholders_enclosedLexemes {α : Type} (item : α → List (Lexeme Param)) (as : List α) :
    placeholders (enclosedLexemes item as) = as.flatMap fun a => placeholders (item a) := by
  rw [← placeholders_listedLexemes]
  change placeholders (listedLexemes item as ++ [.symbol .close]) = _
  rw [placeholders_append]
  exact List.append_nil _

theorem placeholders_endLexemes (returning : List Path) :
    placeholders (endLexemes returning) = [] := by
  cases returning with
  | nil => rfl
  | cons path paths =>
    change placeholders (listedLexemes segmentsLexemes (path :: paths) ++ [.symbol .semicolon]) = []
    rw [placeholders_append, placeholders_listedLexemes]
    simp only [placeholders_segmentsLexemes]
    simp [placeholders, Lexeme.placeholder?]

/-- Values stand in cells and nowhere else. -/
theorem placeholders_lexemes (i : Insertion) :
    placeholders i.lexemes = i.rows.flatten.flatMap Cell.params := by
  have hcells : ∀ row : List Cell, placeholders (enclosedLexemes Cell.lexemes row) =
      row.flatMap Cell.params := by
    intro row
    rw [placeholders_enclosedLexemes]
    exact List.flatMap_congr fun x _ => by cases x <;> rfl
  have hcolumns : placeholders (enclosedLexemes columnLexemes i.columns) = [] := by
    rw [placeholders_enclosedLexemes]
    exact List.flatMap_eq_nil_iff.mpr fun _ _ => rfl
  change placeholders (segmentsLexemes i.table ++ (enclosedLexemes columnLexemes i.columns ++
    ([.keyword .values] ++
      (listedLexemes (enclosedLexemes Cell.lexemes) i.rows ++ endLexemes i.returning)))) = _
  simp only [placeholders_append, placeholders_segmentsLexemes, hcolumns, placeholders_endLexemes,
    placeholders_listedLexemes, hcells, List.nil_append, List.append_nil]
  rw [List.flatten_eq_flatMap, List.flatMap_assoc]
  rfl

end Insertion

/-! ## Texts with parameters -/

/-- The lexemes of a text with its parameters in the places of the placeholders. -/
def Command.lexemes? (d : Dialect) (command : Command) : Option (List (Lexeme Param)) :=
  (lex d command.sql.toList).bind (resolve command.params 0)

theorem Command.lexemes?_command (d : Dialect) {f : Fragment} (h : f.IsChain Apart) :
    (Fragment.command d f).lexemes? d = some f.lexemes := by
  have hlex := lex_write d 0 h
  have hresolve : resolve f.params 0 (numbered d 0 f.lexemes) = some f.lexemes :=
    resolve_numbered d f.placeholders_lexemes.symm
  unfold lexemes? Fragment.command
  dsimp only
  rw [hlex, Option.bind_some, hresolve]

def Insertion.ofCommand? (d : Dialect) (command : Command) : Option Insertion :=
  (command.lexemes? d).bind Insertion.read?

/-- What a configuration writes down is read as the lexemes that it is made of. -/
theorem lexemes?_of_ended (c : Config) {f : Fragment}
    (h : ∃ g, g.IsClause ∧ f = Fragment.ended g) :
    (c.command f).lexemes? c.dialect = some f.lexemes := by
  obtain ⟨g, hg, rfl⟩ := h
  exact Command.lexemes?_command c.dialect (Config.isChain_ended hg)

end SingleTable.Sql
