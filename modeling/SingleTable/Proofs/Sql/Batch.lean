import SingleTable.Proofs.Sql.Insertion
import SingleTable.Proofs.Sql.Request

/-! # Batches of rows

Rows with different keys share one list of columns and one list of parameters. A row has a cell
under every column listed, and each value stands in the cell of its own row and column.

* `Catalog.Fills`: what the cell of a row and a column holds; `Catalog.fill` is that cell.
* `Config.lexemes_insert`: the text of an insertion is a table of such cells.
* `Config.insert_reads_back`: which columns are listed, and what is read back under them.
-/

namespace SingleTable
open Sql Sql.Fragment

/-! ## Cells -/

/-- The cell of a value in a column of type `t`. -/
def Sql.Cell.ofValue (t : ColumnType) (j : Json) : Cell :=
  match t, j with
  | .point, .object fields =>
    .point (.ofJson (Record.get fields "x")) (.ofJson (Record.get fields "y"))
  | t, j => .value (t.param j)

theorem Sql.Cell.ofValue_of_not_point {t : ColumnType} {j : Json}
    (h : t = .point → j.isObject = false) : ofValue t j = .value (t.param j) := by
  unfold ofValue
  split
  · cases h rfl
  · rfl

namespace Catalog

/-- A missing value leaves the column's default, which is not null. An object in a column of points
gives its two coordinates, and any other value is bound as its column's type asks. -/
inductive Fills (c : Catalog) (row : Record) (name : String) : Cell → Prop
  | missing (h : row.get? name = none) : Fills c row name .default
  | null (h : row.get? name = some .null) : Fills c row name (.value .null)
  | point {fields : Record} (ht : c.type? name = some .point)
      (h : row.get? name = some (.object fields)) :
      Fills c row name (.point (.ofJson (fields.get "x")) (.ofJson (fields.get "y")))
  | value {t : ColumnType} {j : Json} (ht : c.type? name = some t) (h : row.get? name = some j)
      (hnull : j ≠ .null) (hpoint : t = .point → j.isObject = false) :
      Fills c row name (.value (t.param j))

def fill (c : Catalog) (row : Record) (name : String) : Cell :=
  match row.get? name, c.type? name with
  | none, _ => .default
  | some j, some t => .ofValue t j
  | some j, none => .value (.ofJson j)

theorem exists_type_of_mem_names {c : Catalog} {name : String} (h : name ∈ c.names) :
    ∃ t, c.type? name = some t := by
  have hget := contains_iff_mem_names.mpr h
  unfold contains at hget
  obtain ⟨x, hx⟩ := Option.isSome_iff_exists.mp hget
  exact ⟨x.type, by rw [type?, hx, Option.map_some]⟩

theorem fills_fill {c : Catalog} {name : String} (h : name ∈ c.names) (row : Record) :
    c.Fills row name (c.fill row name) := by
  obtain ⟨t, ht⟩ := exists_type_of_mem_names h
  unfold fill
  rw [ht]
  cases hj : row.get? name with
  | none => exact .missing hj
  | some j =>
    dsimp only
    by_cases hpoint : t = .point → j.isObject = false
    · rw [Cell.ofValue_of_not_point hpoint]
      by_cases hnull : j = .null
      · subst hnull
        have hparam : t.param .null = .null := by cases t <;> rfl
        rw [hparam]
        exact .null hj
      · exact .value ht hj hnull hpoint
    · obtain ⟨rfl, hobject⟩ : t = .point ∧ j.isObject = true := by simpa using hpoint
      cases j with
      | object fields => exact .point ht hj
      | _ => cases hobject

end Catalog

theorem lexemes_value (t : ColumnType) (j : Json) :
    (Fragment.ofParam (t.param j)).lexemes = (Cell.value (t.param j)).lexemes :=
  lexemes_ofParam (t.param_ne_default j)

theorem lexemes_point (x y : Json) :
    (Fragment.call .point
      [Fragment.ofParam (.ofJson x), Fragment.ofParam (.ofJson y)]).lexemes =
      (Cell.point (.ofJson x) (.ofJson y)).lexemes := by
  have hx := lexemes_ofParam (Param.ofJson_ne_default x)
  have hy := lexemes_ofParam (Param.ofJson_ne_default y)
  rw [Fragment.call, lexemes_cons, lexemes_enclosed, lexemes_listed, hx, List.flatMap_singleton, hy]
  rfl

theorem Catalog.lexemes_bound {c : Catalog} {name : String} {t : ColumnType}
    (ht : c.type? name = some t) (j : Json) :
    (c.bound name j).lexemes = (Cell.ofValue t j).lexemes := by
  unfold bound
  rw [ht]
  cases t with
  | point =>
    cases j with
    | object fields => exact lexemes_point _ _
    | _ => exact lexemes_value .point _
  | _ => exact lexemes_value _ j

namespace Config

theorem lexemes_cell {catalog : Catalog} {name : String} (h : name ∈ catalog.names)
    (row : Record) : (cell catalog row name).lexemes = (catalog.fill row name).lexemes := by
  obtain ⟨t, ht⟩ := Catalog.exists_type_of_mem_names h
  unfold cell Catalog.fill
  rw [ht]
  cases row.get? name with
  | none => rfl
  | some j => exact Catalog.lexemes_bound ht j

end Config

/-! ## Lists -/

theorem lexemes_listed_map {α β : Type} {part : α → Fragment} {item : β → List (Lexeme Param)}
    {f : α → β} {as : List α} (h : ∀ a ∈ as, (part a).lexemes = item (f a)) :
    (Fragment.listed (as.map part)).lexemes = listedLexemes item (as.map f) := by
  cases as with
  | nil => rfl
  | cons a as =>
    have hrest : (as.map part).flatMap (fun g => .symbol .comma :: g.lexemes) =
        (as.map f).flatMap fun b => .symbol .comma :: item b := by
      rw [List.flatMap_map, List.flatMap_map]
      refine List.flatMap_congr fun b hb => ?_
      rw [h b (List.mem_cons_of_mem a hb)]
    rw [List.map_cons, List.map_cons, lexemes_listed, h a List.mem_cons_self, hrest]
    rfl

namespace Config

theorem lexemes_tuple {catalog : Catalog} {columns : List String}
    (h : ∀ name ∈ columns, name ∈ catalog.names) (row : Record) :
    (tuple catalog columns row).lexemes =
      enclosedLexemes Cell.lexemes (columns.map (catalog.fill row)) := by
  rw [tuple, lexemes_enclosed, lexemes_listed_map fun name hname => lexemes_cell (h name hname) row]
  rfl

/-- The paths of the columns handed back. -/
def returningPaths (d : Dialect) (columns : List String) : List Path :=
  if d.supportsReturning then columns.map Identifier.segments else []

theorem lexemes_returning (d : Dialect) (columns : List String) :
    (ended (Fragment.tail (returningClause d columns))).lexemes =
      Insertion.endLexemes (returningPaths d columns) := by
  unfold returningClause returningPaths
  cases d.supportsReturning with
  | false =>
    rw [Bool.not_false, Bool.or_true]
    rfl
  | true =>
    cases columns with
    | nil => rfl
    | cons column columns =>
      have hlist : (Fragment.listed ((column :: columns).map Fragment.ofName)).lexemes =
          listedLexemes segmentsLexemes ((column :: columns).map Identifier.segments) :=
        lexemes_listed_map fun _ _ => List.append_nil _
      have hclause : (Fragment.spaced [Fragment.ofWord .returning,
            Fragment.listed ((column :: columns).map Fragment.ofName)]).lexemes =
          .keyword .returning ::
            listedLexemes segmentsLexemes ((column :: columns).map Identifier.segments) := by
        rw [lexemes_spaced, ← hlist]
        simp [Fragment.ofWord, Token.lexemes, Word.keywords]
      change (Fragment.spaced [Fragment.ofWord .returning,
        Fragment.listed ((column :: columns).map Fragment.ofName)] ++
          [Token.mark .semicolon]).lexemes = _
      rw [lexemes_append, hclause]
      rfl

/-- The insertion of rows under some columns. -/
def insertion (c : Config) (catalog : Catalog) (columns : List String) (rows : List Record)
    (returning : List String) : Insertion where
  table := Identifier.segments c.table
  columns := columns
  rows := rows.map fun row => columns.map (catalog.fill row)
  returning := returningPaths c.dialect returning

theorem segments_ne_nil (name : String) : Identifier.segments name ≠ [] :=
  List.splitOn_ne_nil _ _

theorem isFilled_insertion (c : Config) (catalog : Catalog) {columns : List String}
    {rows : List Record} (returning : List String) (hcolumns : columns ≠ []) (hrows : rows ≠ []) :
    (c.insertion catalog columns rows returning).IsFilled where
  table := segments_ne_nil c.table
  columns := hcolumns
  rows := by simpa [insertion] using hrows
  row := by
    intro cells hcells
    obtain ⟨row, -, rfl⟩ := List.mem_map.mp hcells
    simpa using hcolumns
  returning := by
    intro path hpath
    unfold insertion returningPaths at hpath
    dsimp only at hpath
    split at hpath
    · obtain ⟨name, -, rfl⟩ := List.mem_map.mp hpath
      exact segments_ne_nil name
    · cases hpath

/-- The lexemes of a statement that inserts rows. -/
theorem lexemes_insert {c : Config} {catalog : Catalog} {rows : List Record}
    {returning : List String} {f : Fragment}
    (hnames : ∀ name ∈ catalog.names, Identifier.IsWord name)
    (h : c.insert catalog rows returning = .ok f) :
    suppliedColumns catalog rows ≠ [] ∧
      f.lexemes = (c.insertion catalog (suppliedColumns catalog rows) rows returning).lexemes := by
  unfold insert at h
  have hmem : ∀ name ∈ suppliedColumns catalog rows, name ∈ catalog.names :=
    fun name hname => (List.mem_filter.mp hname).1
  revert h hmem
  generalize suppliedColumns catalog rows = columns
  intro h hmem
  split at h
  · cases h
  · rename_i hne
    obtain rfl := Except.ok.inj h
    refine ⟨hne, ?_⟩
    have hcolumns : (Fragment.listed (columns.map Fragment.ofName)).lexemes =
        listedLexemes columnLexemes (columns.map id) :=
      lexemes_listed_map fun name hname => lexemes_ofName (hnames name (hmem name hname))
    have hrows : (Fragment.listed (rows.map (tuple catalog columns))).lexemes =
        listedLexemes (enclosedLexemes Cell.lexemes)
          (rows.map fun row => columns.map (catalog.fill row)) :=
      lexemes_listed_map fun row _ => lexemes_tuple hmem row
    have htable : (Fragment.ofName c.table).lexemes =
        segmentsLexemes (Identifier.segments c.table) := List.append_nil _
    have hend := lexemes_returning c.dialect returning
    unfold ended at hend ⊢
    rw [List.append_assoc, lexemes_append, hend, lexemes_spaced]
    simp only [List.flatMap_cons, List.flatMap_nil, htable, lexemes_enclosed, hcolumns, hrows,
      List.map_id]
    simp [Insertion.lexemes, insertion, enclosedLexemes, Fragment.ofWord, Token.lexemes,
      Word.keywords]

/-! ## Reading a batch back -/

theorem mem_suppliedColumns {catalog : Catalog} {rows : List Record} {name : String} :
    name ∈ suppliedColumns catalog rows ↔
      name ∈ catalog.names ∧ ∃ row ∈ rows, ∃ j, Record.get? row name = some j := by
  simp [suppliedColumns, Record.contains, Option.isSome_iff_exists]

theorem rows_ne_nil {catalog : Catalog} {rows : List Record}
    (h : suppliedColumns catalog rows ≠ []) : rows ≠ [] := by
  rintro rfl
  obtain ⟨name, hname⟩ := List.exists_mem_of_ne_nil _ h
  obtain ⟨-, row, hrow, -⟩ := mem_suppliedColumns.mp hname
  cases hrow

theorem insert_eq_error {c : Config} {catalog : Catalog} {rows : List Record}
    {returning : List String} {e : Refusal} (h : c.insert catalog rows returning = .error e) :
    e = .nothingToInsert ∧ suppliedColumns catalog rows = [] := by
  unfold insert at h
  split at h
  · rename_i hnil
    exact ⟨(Except.error.inj h).symm, hnil⟩
  · cases h

/-- Every cell holds what its own row has for its own column. -/
theorem fills_insertion (c : Config) {catalog : Catalog} {columns : List String}
    (h : ∀ name ∈ columns, name ∈ catalog.names) (rows : List Record) (returning : List String) :
    List.Forall₂ (fun row cells => List.Forall₂ (catalog.Fills row) columns cells) rows
      (c.insertion catalog columns rows returning).rows := by
  refine List.forall₂_map_right_iff.mpr (List.forall₂_same.mpr fun row _ => ?_)
  refine List.forall₂_map_right_iff.mpr (List.forall₂_same.mpr fun name hname => ?_)
  exact Catalog.fills_fill (h name hname) row

/-- The text of a statement that inserts rows is read as the insertion of those rows. -/
theorem insertion_insert {c : Config} {catalog : Catalog} {rows : List Record}
    {returning : List String} {f : Fragment}
    (hnames : ∀ name ∈ catalog.names, Identifier.IsWord name)
    (h : c.insert catalog rows returning = .ok f) :
    Insertion.ofCommand? c.dialect (c.command f) =
      some (c.insertion catalog (suppliedColumns catalog rows) rows returning) := by
  obtain ⟨hne, hlexemes⟩ := lexemes_insert hnames h
  have hfilled := c.isFilled_insertion catalog returning hne (rows_ne_nil hne)
  rw [Insertion.ofCommand?, lexemes?_of_ended c (isClause_insert h), Option.bind_some, hlexemes,
    Insertion.read?_lexemes hfilled]

/-- **A batch is read back as it was given.** It is refused if no row has a value for any column.
Otherwise the columns listed are those that some row has a value for, in the order of the catalog,
and every row has a tuple of its own, with its own values under their columns. -/
theorem insert_reads_back (c : Config) {catalog : Catalog}
    (hnames : ∀ name ∈ catalog.names, Identifier.IsWord name) (rows : List Record)
    (returning : List String) :
    match c.statement (.insert catalog rows returning) with
    | .error e =>
      e.kind = .invalidPayload ∧ ∀ row ∈ rows, ∀ name ∈ catalog.names, row.get? name = none
    | .ok command => ∃ i, Insertion.ofCommand? c.dialect command = some i ∧
        i.columns.Sublist catalog.names ∧ i.columns.Nodup ∧ i.columns ≠ [] ∧
        (∀ name, name ∈ i.columns ↔
          name ∈ catalog.names ∧ ∃ row ∈ rows, ∃ j, row.get? name = some j) ∧
        List.Forall₂ (fun row cells => List.Forall₂ (catalog.Fills row) i.columns cells)
          rows i.rows ∧
        command.params = i.rows.flatten.flatMap Cell.params := by
  rw [statement_eq_map]
  change match (c.insert catalog rows returning).map c.command with
    | .error e => _
    | .ok command => _
  cases h : c.insert catalog rows returning with
  | error e =>
    obtain ⟨rfl, hnil⟩ := insert_eq_error h
    refine ⟨rfl, fun row hrow name hname => ?_⟩
    cases hj : row.get? name with
    | none => rfl
    | some j =>
      have hmem := mem_suppliedColumns.mpr ⟨hname, row, hrow, j, hj⟩
      rw [hnil] at hmem
      cases hmem
  | ok f =>
    obtain ⟨hne, hlexemes⟩ := lexemes_insert hnames h
    obtain ⟨g, hg, hended⟩ := isClause_insert h
    have hchain : f.IsChain Apart := hended ▸ isChain_ended hg
    have hmem : ∀ name ∈ suppliedColumns catalog rows, name ∈ catalog.names :=
      fun name hname => (mem_suppliedColumns.mp hname).1
    have hfilled := c.isFilled_insertion catalog returning hne (rows_ne_nil hne)
    have hsub : (suppliedColumns catalog rows).Sublist catalog.names := List.filter_sublist
    refine ⟨c.insertion catalog (suppliedColumns catalog rows) rows returning, ?_, hsub,
      hsub.nodup catalog.nodup, hne, fun name => mem_suppliedColumns,
      c.fills_insertion hmem rows returning, ?_⟩
    · unfold Insertion.ofCommand?
      rw [Config.command, Command.lexemes?_command c.dialect hchain, Option.bind_some, hlexemes,
        Insertion.read?_lexemes hfilled]
    · rw [← Insertion.placeholders_lexemes, ← hlexemes]
      exact (Fragment.placeholders_lexemes f).symm

theorem insert_reads_back_places :
    let c := Config.ofTable "places" (.ofList
      [⟨"name", .string, false⟩, ⟨"spot", .point, false⟩, ⟨"seen", .date, false⟩,
       ⟨"note", .string, false⟩])
    let rows : List Record :=
      [[("spot", .object [("x", .bool true), ("y", .null)]), ("note", .string "DEFAULT")],
       [("note", .null), ("name", .string "a"), ("spot", .string "b")]]
    ∃ command i, c.statement (.insert c.columns rows ["*"]) = .ok command ∧
      command.sql = "INSERT INTO \"places\" (\"name\", \"spot\", \"note\") VALUES " ++
        "(DEFAULT, POINT($1, $2), $3), ($4, $5, $6) RETURNING *;" ∧
      Insertion.ofCommand? .postgres command = some i ∧
      List.Forall₂ (fun row cells => List.Forall₂ (c.columns.Fills row) i.columns cells)
        rows i.rows ∧
      command.params = i.rows.flatten.flatMap Cell.params := by
  intro c rows
  have hnames : ∀ name ∈ c.columns.names, Identifier.IsWord name := by decide +kernel
  obtain ⟨i, hread, -, -, -, -, hfills, hparams⟩ := c.insert_reads_back hnames rows ["*"]
  exact ⟨_, i, rfl, by decide +kernel, hread, hfills, hparams⟩

end Config

end SingleTable
