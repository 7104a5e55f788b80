import SingleTable.Proofs.Sql.Batch

/-! # Overwriting rows

What a database makes of the text of an `UPDATE`: which columns are set, and to what.

* `Setting`: a column, and the cell that it is set to.
* `Overwriting`: a table, settings, and what comes behind them.
* `Overwriting.read?`, `Overwriting.ofCommand?`: the overwriting that lexemes are, or that a text
  with its parameters is.
* `Config.overwriting_update`: what is set by a statement of a configuration.
-/

namespace SingleTable
open Sql Sql.Fragment

namespace Sql

/-! ## Settings -/

structure Setting where
  column : String
  cell : Cell

namespace Setting

def lexemes (s : Setting) : List (Lexeme Param) :=
  .quoted s.column.toList :: .comparison .equals :: s.cell.lexemes

def read? : List (Lexeme Param) → Option (Setting × List (Lexeme Param))
  | .quoted s :: .comparison .equals :: xs =>
    (Cell.read? xs).map fun (cell, rest) => (⟨String.ofList s, cell⟩, rest)
  | _ => none

theorem read?_lexemes (s : Setting) : IsReadBy read? lexemes s := by
  intro rest hdot
  have hcell := s.cell.read?_lexemes rest hdot
  change (Cell.read? (s.cell.lexemes ++ rest)).map _ = _
  rw [hcell, Option.map_some, String.ofList_toList]

end Setting

/-! ## The whole statement -/

/-- What comes behind the settings says which rows are meant and what is handed back. -/
structure Overwriting where
  table : Path
  settings : List Setting
  rest : List (Lexeme Param)

namespace Overwriting

/-- The list of settings has come to its end. -/
def ends : List (Lexeme Param) → Bool
  | .keyword .where :: _ => true
  | .keyword .returning :: _ => true
  | [.symbol .semicolon] => true
  | _ => false

theorem stops_of_ends {xs : List (Lexeme Param)} (h : ends xs = true) : Stops xs := by
  unfold ends at h
  split at h
  · simp [Stops]
  · simp [Stops]
  · simp [Stops]
  · cases h

def lexemes (o : Overwriting) : List (Lexeme Param) :=
  .keyword .update :: (segmentsLexemes o.table ++ .keyword .set ::
    (listedLexemes Setting.lexemes o.settings ++ o.rest))

def read? : List (Lexeme Param) → Option Overwriting
  | .keyword .update :: xs => do
    let (table, .keyword .set :: xs) ← readPath? xs | none
    let (settings, rest) ← readListed? Setting.read? xs
    if ends rest then return ⟨table, settings, rest⟩ else none
  | _ => none

structure IsFilled (o : Overwriting) : Prop where
  table : o.table ≠ []
  settings : o.settings ≠ []
  rest : ends o.rest = true

theorem read?_lexemes {o : Overwriting} (h : o.IsFilled) : read? o.lexemes = some o := by
  have hsettings := readListed?_lexemes h.settings (fun s _ => s.read?_lexemes)
    (stops_of_ends h.rest)
  have htable := readPath?_lexemes h.table
    (.keyword .set :: (listedLexemes Setting.lexemes o.settings ++ o.rest)) (by simp)
  rw [lexemes, read?, htable]
  simp only [Option.bind_eq_bind, Option.bind_some, hsettings, h.rest, if_true]
  rfl

def ofCommand? (d : Dialect) (command : Command) : Option Overwriting :=
  (command.lexemes? d).bind read?

end Overwriting

end Sql

/-! ## Statements of a configuration -/

/-- What a field of a record sets. -/
def Catalog.setting (c : Catalog) (field : String × Json) : Setting where
  column := field.1
  cell := (c.type? field.1).elim (.value (.ofJson field.2)) fun t => .ofValue t field.2

namespace Config

theorem lexemes_assignment {catalog : Catalog} {field : String × Json}
    (hname : Identifier.IsWord field.1) (hmem : field.1 ∈ catalog.names) :
    (assignment catalog field).lexemes = (catalog.setting field).lexemes := by
  obtain ⟨t, ht⟩ := Catalog.exists_type_of_mem_names hmem
  have hbound := Catalog.lexemes_bound ht field.2
  simp only [assignment, lexemes_spaced, List.flatMap_cons, List.flatMap_nil, lexemes_ofName hname,
    hbound, List.append_nil, Setting.lexemes, Catalog.setting, ht, Option.elim_some]
  rfl

/-- The lexemes behind the settings. -/
def restLexemes (d : Dialect) (filter : List Node) (returning : List String) :
    List (Lexeme Param) :=
  (tail (whereClause filter)).lexemes ++ Insertion.endLexemes (returningPaths d returning)

theorem ends_restLexemes (d : Dialect) (filter : List Node) (returning : List String) :
    Overwriting.ends (restLexemes d filter returning) = true := by
  unfold restLexemes
  cases filter with
  | nil => cases returningPaths d returning <;> rfl
  | cons n ns => rfl

/-- The statement that overwrites rows with a record. -/
def overwriting (c : Config) (catalog : Catalog) (data : Record) (filter : List Node)
    (returning : List String) : Overwriting where
  table := Identifier.segments c.table
  settings := data.map catalog.setting
  rest := restLexemes c.dialect filter returning

theorem lexemes_update {c : Config} {catalog : Catalog} {data : Record} {filter : List Node}
    {returning : List String} {f : Fragment}
    (hnames : ∀ name ∈ catalog.names, Identifier.IsWord name)
    (hdata : ∀ name ∈ data.keys, name ∈ catalog.names)
    (h : c.update catalog data filter returning = .ok f) :
    data ≠ [] ∧ f.lexemes = (c.overwriting catalog data filter returning).lexemes := by
  unfold update at h
  split at h
  · cases h
  · rename_i hne
    obtain rfl := Except.ok.inj h
    refine ⟨hne, ?_⟩
    have hlist : (Fragment.listed (data.map (assignment catalog))).lexemes =
        listedLexemes Setting.lexemes (data.map catalog.setting) := by
      refine lexemes_listed_map fun field hfield => ?_
      have hmem := hdata field.1 (List.mem_map_of_mem hfield)
      exact lexemes_assignment (hnames field.1 hmem) hmem
    have htable : (Fragment.ofName c.table).lexemes =
        segmentsLexemes (Identifier.segments c.table) := List.append_nil _
    have hend := lexemes_returning c.dialect returning
    unfold ended at hend ⊢
    rw [List.append_assoc, List.append_assoc, lexemes_append, lexemes_append, hend, lexemes_spaced]
    simp only [List.flatMap_cons, List.flatMap_nil, htable, hlist]
    simp [Overwriting.lexemes, overwriting, restLexemes, Fragment.ofWord, Token.lexemes,
      Word.keywords]

/-- What is set is what the record has, field by field. -/
theorem overwriting_update {c : Config} {catalog : Catalog} {data : Record} {filter : List Node}
    {returning : List String} {f : Fragment}
    (hnames : ∀ name ∈ catalog.names, Identifier.IsWord name)
    (hdata : ∀ name ∈ data.keys, name ∈ catalog.names)
    (h : c.update catalog data filter returning = .ok f) :
    Overwriting.ofCommand? c.dialect (c.command f) =
      some (c.overwriting catalog data filter returning) := by
  obtain ⟨hne, hlexemes⟩ := lexemes_update hnames hdata h
  have hfilled : (c.overwriting catalog data filter returning).IsFilled :=
    ⟨segments_ne_nil c.table, fun hnil => hne (List.map_eq_nil_iff.mp hnil),
      ends_restLexemes c.dialect filter returning⟩
  rw [Overwriting.ofCommand?, lexemes?_of_ended c (isClause_update h), Option.bind_some, hlexemes,
    Overwriting.read?_lexemes hfilled]

end Config

end SingleTable
