import SingleTable.Proofs.Payload.Remapping
import SingleTable.Proofs.Sql.Alignment

/-! # What is bound for a payload

A value that was checked for a column is bound as a parameter of the column's type, at every depth
of an array.

* `ColumnType.Admits`: the parameters of a type.
* `ColumnType.param?`: the parameter of a value, none as soon as a time in it is none.
* `Catalog.Binds`: the parameters that may be bound for a column, by what a payload says about it.
* `Payload.binds_of_map`: the parameters of an insertion and of an update of a mapped record.
-/

namespace SingleTable
open Sql Sql.Fragment

namespace Param

def IsNumber : Param → Prop
  | bigInt _ | double _ => True
  | _ => False

theorem isNumber_ofNumber (n : Number) : (ofNumber n).IsNumber := by
  cases n with
  | int n =>
    rw [ofNumber]
    split <;> trivial
  | double x => trivial

end Param

namespace ColumnType

/-! ## Parameters of a type -/

/-- A point that is no column of its own stays a document. -/
def Admits : ColumnType → Param → Prop
  | boolean, .bool _ => True
  | string, .text _ | uuid, .text _ | cidr, .text _ | json, .text _ | jsonb, .text _ => True
  | enum values, .text s => s ∈ values
  | number, p | float, p | integer, p | serial, p => p.IsNumber
  | timestamp, .timestamp _ | dateTime, .timestamp _ => True
  | date, .date _ => True
  | point, .json j => checkPoint j = some j
  | array inner, .array items => ∀ q ∈ items, q = .null ∨ inner.Admits q
  | _, _ => False

/-- The parameter of one word or document; a time that is none has no parameter. -/
def scalarParam? (t : ColumnType) (j : Json) : Option Param :=
  match t with
  | timestamp | dateTime => j.toTimestamp?.map .timestamp
  | date => j.toTimestamp?.map fun t => .date t.date
  | t => some (t.scalarParam j)

def param? : ColumnType → Json → Option Param
  | _, .null => some .null
  | array inner, .array items => (items.mapM (param? inner)).map .array
  | t, j => scalarParam? t j

/-! ## The parameter of a checked value -/

theorem isNumber_of_isFiniteNumber {j : Json} (h : isFiniteNumber j = true) :
    (Param.ofJson j).IsNumber := by
  cases j with
  | number n => exact Param.isNumber_ofNumber n
  | _ => cases h

theorem toTimestamp?_of_checkScalar {t : ColumnType} {j k : Json} (ht : t.isTemporal = true)
    (h : t.checkScalar j = some k) : ∃ time, k.toTimestamp? = some time := by
  have hkeep : keepIf j.toTimestamp?.isSome j = some k := by
    cases t <;> cases ht <;> cases j <;> first | exact h | cases h
  rw [eq_of_keepIf hkeep]
  exact Option.isSome_iff_exists.mp (of_keepIf hkeep)

/-- What is kept of a scalar value has a parameter, and it is one of the type. -/
theorem admits_of_checkScalar {t : ColumnType} {j k : Json} (h : t.checkScalar j = some k) :
    t.scalarParam? k = some (t.scalarParam k) ∧ t.Admits (t.scalarParam k) := by
  cases t with
  | boolean | string =>
    cases j <;> cases h
    exact ⟨rfl, trivial⟩
  | number | float =>
    cases j <;> cases h
    exact ⟨rfl, Param.isNumber_ofNumber _⟩
  | integer =>
    cases j with
    | number n =>
      obtain ⟨m, rfl⟩ := exists_of_checkInteger h
      exact ⟨rfl, Param.isNumber_ofNumber (.int m)⟩
    | _ => cases h
  | serial =>
    cases j with
    | number n =>
      obtain ⟨m, rfl⟩ := exists_of_checkInteger h
      exact ⟨rfl, Param.isNumber_ofNumber (.int m)⟩
    | _ => cases h
  | timestamp | dateTime | date =>
    obtain ⟨time, htime⟩ := toTimestamp?_of_checkScalar rfl h
    simp only [scalarParam?, scalarParam, htime]
    exact ⟨rfl, trivial⟩
  | uuid | cidr =>
    cases j with
    | string s =>
      obtain rfl := eq_of_keepIf h
      exact ⟨rfl, trivial⟩
    | _ => cases h
  | enum values =>
    cases j with
    | string s =>
      have hmem : s ∈ values := List.contains_iff_mem.mp (of_keepIf h)
      obtain rfl := eq_of_keepIf h
      exact ⟨rfl, hmem⟩
    | _ => cases h
  | json | jsonb => cases j <;> cases h <;> exact ⟨rfl, trivial⟩
  | point =>
    have hagain := checkPoint_of_checkPoint h
    obtain ⟨x, y, -, rfl⟩ := exists_of_checkPoint h
    exact ⟨rfl, hagain⟩
  | array inner => cases h

/-- The items of a kept array are null or kept for the inner type. -/
theorem forall_of_mapM_orNull {f : Json → Option Json} {js ks : List Json}
    (h : js.mapM (orNull f) = some ks) : ∀ k ∈ ks, k = .null ∨ ∃ j, f j = some k := by
  intro k hk
  obtain ⟨j, -, hj⟩ := exists_of_mem_right (mapM_eq_some_iff.mp h) hk
  unfold orNull at hj
  split at hj
  · exact .inl (Option.some.inj hj).symm
  · exact .inr ⟨j, hj⟩

theorem mapM_eq_some_map {α β : Type} {f : α → Option β} {g : α → β} {xs : List α}
    (h : ∀ x ∈ xs, f x = some (g x)) : xs.mapM f = some (xs.map g) := by
  rw [mapM_eq_some_iff, List.forall₂_map_right_iff]
  exact List.forall₂_same.mpr h

/-- **What is kept for a column is bound as its type demands**, by induction on the nesting of
arrays: no time in it is left as it was given. -/
theorem admits_of_check {t : ColumnType} {j k : Json} (h : t.check j = some k) :
    t.param? k = some (t.param k) ∧ t.Admits (t.param k) := by
  induction t generalizing j k with
  | array inner ih =>
    cases j with
    | array items =>
      obtain ⟨ks, hks, rfl⟩ := Option.map_eq_some_iff.mp h
      have hitems : ∀ k ∈ ks, inner.param? k = some (inner.param k) ∧
          (inner.param k = .null ∨ inner.Admits (inner.param k)) := by
        intro k hk
        rcases forall_of_mapM_orNull hks k hk with rfl | ⟨j, hj⟩
        · cases inner <;> exact ⟨rfl, .inl rfl⟩
        · exact (ih hj).imp_right .inr
      refine ⟨?_, ?_⟩
      · have hall := mapM_eq_some_map fun k hk => (hitems k hk).1
        change (ks.mapM inner.param?).map Param.array = some (.array (ks.map inner.param))
        rw [hall]
        rfl
      · intro q hq
        obtain ⟨k, hk, rfl⟩ := List.mem_map.mp hq
        exact (hitems k hk).2
    | _ => cases h
  | _ =>
    obtain ⟨hparam, hadmits⟩ := admits_of_checkScalar h
    cases k with
    | null => exact absurd h checkScalar_ne_null
    | _ => exact ⟨hparam, hadmits⟩

end ColumnType

/-! ## Parameters of a column -/

/-- What is bound for a column, given what the payload has for it: nothing for a value that is
missing, null only when the column is not required, and two numbers for a point. -/
inductive Column.Binds (x : Column) : Option Json → List Param → Prop
  | missing : x.Binds none []
  | null (h : x.required = false) : x.Binds (some .null) [.null]
  | point {j : Json} {p q : Param} (hj : j ≠ .null) (ht : x.type = .point) (hp : p.IsNumber)
      (hq : q.IsNumber) : x.Binds (some j) [p, q]
  | value {j : Json} {p : Param} (hj : j ≠ .null) (ht : x.type ≠ .point) (hp : x.type.Admits p) :
      x.Binds (some j) [p]

/-- What a payload has for a column, under either of its keys. -/
def Payload.given? (n : Naming) : Json → String → Option Json
  | .object fields, column => find? n fields column
  | _, _ => none

/-- The parameters `ps` may be bound for the column `name` of a record that the payload was
mapped to. -/
def Catalog.Binds (c : Catalog) (n : Naming) (payload : Json) (name : String) (ps : List Param) :
    Prop :=
  ∃ x, c.get? name = some x ∧ x.Binds (Payload.given? n payload name) ps

namespace Catalog

theorem params_bound_point {c : Catalog} {x : Column} (hx : c.get? x.name = some x)
    (ht : x.type = .point) (a b : Json) :
    (c.bound x.name (.object [("x", a), ("y", b)])).params = [.ofJson a, .ofJson b] := by
  have htype : c.type? x.name = some .point := by rw [type?, hx, Option.map_some, ht]
  have hbound : c.bound x.name (.object [("x", a), ("y", b)]) =
      call .point [ofParam (.ofJson a), ofParam (.ofJson b)] := by
    unfold bound
    rw [htype]
    rfl
  rw [hbound, call, params_cons, params_enclosed, params_listed, List.flatMap_cons,
    List.flatMap_cons, params_ofParam (Param.ofJson_ne_default a),
    params_ofParam (Param.ofJson_ne_default b)]
  rfl

theorem params_bound {c : Catalog} {x : Column} (hx : c.get? x.name = some x) {j : Json}
    (h : x.type ≠ .point ∨ j = .null) : (c.bound x.name j).params = [x.type.param j] := by
  have htype : c.type? x.name = some x.type := by rw [type?, hx, Option.map_some]
  have hbound : c.bound x.name j = ofParam (x.type.param j) := by
    unfold bound
    rw [htype]
    rcases h with ht | rfl
    · cases hxt : x.type <;> first | rfl | exact absurd hxt ht
    · cases x.type <;> rfl
  rw [hbound, params_ofParam (x.type.param_ne_default j)]

end Catalog

namespace Payload

section Columns
variable {c : Catalog} {n : Naming} {isPartial : Bool} {fields r : Record} {x : Column}

theorem find?_eq_none_of_mapColumn (h : mapColumn c n isPartial fields x = .ok none) :
    find? n fields x.name = none := by
  rcases mapColumn_eq_ok h with ⟨hfind, -, -⟩ | ⟨-, -, hk⟩ | ⟨j, k, -, -, -, hk⟩
  · exact hfind
  · cases hk
  · cases hk

theorem binds_of_mapColumn (hx : c.get? x.name = some x) {k : Json}
    (h : mapColumn c n isPartial fields x = .ok (some k)) :
    x.Binds (find? n fields x.name) (c.bound x.name k).params := by
  rcases mapColumn_eq_ok h with
    ⟨-, -, hk⟩ | ⟨hfind, hrequired, hk⟩ | ⟨j, k', hne, hfind, hcheck, hk⟩
  · cases hk
  · obtain rfl := Option.some.inj hk
    rw [hfind, Catalog.params_bound hx (.inr rfl)]
    have hnull : x.type.param .null = .null := by cases x.type <;> rfl
    rw [hnull]
    exact .null hrequired
  · obtain rfl := Option.some.inj hk
    rw [hfind]
    by_cases ht : x.type = .point
    · rw [ht] at hcheck
      obtain ⟨a, b, hfinite, rfl⟩ := ColumnType.exists_of_checkPoint hcheck
      rw [Bool.and_eq_true] at hfinite
      rw [Catalog.params_bound_point hx ht]
      exact .point hne ht (ColumnType.isNumber_of_isFiniteNumber hfinite.1)
        (ColumnType.isNumber_of_isFiniteNumber hfinite.2)
    · rw [Catalog.params_bound hx (.inl ht)]
      exact .value hne ht (ColumnType.admits_of_check hcheck).2

theorem param?_of_mapColumn {k : Json} (h : mapColumn c n isPartial fields x = .ok (some k)) :
    x.type.param? k = some (x.type.param k) := by
  rcases mapColumn_eq_ok h with ⟨-, -, hk⟩ | ⟨-, -, hk⟩ | ⟨j, k', -, -, hcheck, hk⟩
  · cases hk
  · obtain rfl := Option.some.inj hk
    cases x.type <;> rfl
  · obtain rfl := Option.some.inj hk
    exact (ColumnType.admits_of_check hcheck).1

theorem exists_column_of_mem {xs : List Column} (h : mapColumns c n isPartial fields xs = .ok r)
    {field : String × Json} (hfield : field ∈ r) :
    ∃ x ∈ xs, x.name = field.1 ∧ mapColumn c n isPartial fields x = .ok (some field.2) := by
  induction xs generalizing r with
  | nil =>
    obtain rfl := Except.ok.inj h
    cases hfield
  | cons x xs ih =>
    obtain ⟨found, hfound, h⟩ := exists_of_bind_ok h
    obtain ⟨rest, hrest, h⟩ := exists_of_bind_ok h
    cases found with
    | none =>
      obtain rfl := Except.ok.inj h
      obtain ⟨y, hy, hname⟩ := ih hrest hfield
      exact ⟨y, List.mem_cons_of_mem x hy, hname⟩
    | some j =>
      obtain rfl := Except.ok.inj h
      rcases List.mem_cons.mp hfield with rfl | hfield
      · exact ⟨x, List.mem_cons_self, rfl, hfound⟩
      · obtain ⟨y, hy, hname⟩ := ih hrest hfield
        exact ⟨y, List.mem_cons_of_mem x hy, hname⟩

theorem exists_of_map {payload : Json} (h : map c n isPartial payload = .ok r) :
    ∃ fields, payload = .object fields ∧ mapColumns c n isPartial fields c.columns = .ok r := by
  cases payload with
  | object fields =>
    obtain ⟨r', hr', h⟩ := exists_of_bind_ok h
    split at h
    · cases h
    · obtain rfl := Except.ok.inj h
      exact ⟨fields, rfl, hr'⟩
  | _ => cases h

end Columns

end Payload

/-! ## Parameters of a statement -/

namespace Config

theorem params_tuple (catalog : Catalog) (columns : List String) (row : Record) :
    (tuple catalog columns row).params =
      columns.flatMap fun name => (cell catalog row name).params := by
  rw [tuple, params_enclosed, params_listed, List.flatMap_map]

theorem params_insert {c : Config} {catalog : Catalog} {rows : List Record}
    {returning : List String} {command : Command}
    (h : c.statement (.insert catalog rows returning) = .ok command) :
    command.params = rows.flatMap fun row =>
      (suppliedColumns catalog rows).flatMap fun name => (cell catalog row name).params := by
  have hnames : ∀ columns : List String, (enclosed (listed (columns.map ofName))).params = [] := by
    intro columns
    rw [params_enclosed, params_listed, List.flatMap_map]
    exact List.flatMap_eq_nil_iff.mpr fun _ _ => rfl
  have htuples : ∀ columns, (listed (rows.map (tuple catalog columns))).params =
      rows.flatMap fun row => columns.flatMap fun name => (cell catalog row name).params := by
    intro columns
    rw [params_listed, List.flatMap_map]
    exact List.flatMap_congr fun row _ => params_tuple catalog columns row
  rw [statement_eq_map] at h
  change (c.insert catalog rows returning).map c.command = .ok command at h
  unfold insert at h
  split at h
  · cases h
  · obtain rfl := Except.ok.inj h
    change (ended (spaced _ ++ Fragment.tail _)).params = _
    simp only [ended, params_append, params_spaced, List.flatMap_cons, List.flatMap_nil,
      params_returningClause, hnames, htuples, List.append_nil]
    exact List.append_nil _

theorem params_update {c : Config} {catalog : Catalog} {data : Record} {filter : List Node}
    {returning : List String} {command : Command}
    (h : c.statement (.update catalog data filter returning) = .ok command) :
    command.params = (data.flatMap fun field => (catalog.bound field.1 field.2).params) ++
      (Fragment.tail (whereClause filter)).params := by
  obtain ⟨-, -, -, hparams, -⟩ := update_eq_parts h
  rw [hparams]
  exact (write_whereClause ⟨c.dialect, 0, _⟩ filter).2.symm

end Config

namespace Payload

/-- **Every parameter of a mapped record has the shape that its column demands**, in an insertion of
it among other rows and in an update with it; and no time in it is bound as it was given. -/
theorem binds_of_map {catalog : Catalog} {n : Naming} {isPartial : Bool} {payload : Json}
    {row : Record} (h : map catalog n isPartial payload = .ok row) :
    (∀ (c : Config) (rows : List Record) (returning : List String) (command : Command),
      row ∈ rows → c.statement (.insert catalog rows returning) = .ok command →
      (command.params = rows.flatMap fun row => (Config.suppliedColumns catalog rows).flatMap
          fun name => (Config.cell catalog row name).params) ∧
        ∀ name ∈ Config.suppliedColumns catalog rows,
          catalog.Binds n payload name (Config.cell catalog row name).params) ∧
    (∀ (c : Config) (filter : List Node) (returning : List String) (command : Command),
      c.statement (.update catalog row filter returning) = .ok command →
      (command.params = (row.flatMap fun field => (catalog.bound field.1 field.2).params) ++
          (Fragment.tail (whereClause filter)).params) ∧
        ∀ field ∈ row,
          catalog.Binds n payload field.1 (catalog.bound field.1 field.2).params) ∧
    ∀ field ∈ row, ∃ x, catalog.get? field.1 = some x ∧
      x.type.param? field.2 = some (x.type.param field.2) := by
  obtain ⟨fields, rfl, hcolumns⟩ := exists_of_map h
  refine ⟨?_, ?_, ?_⟩
  · intro c rows returning command _ hcommand
    refine ⟨Config.params_insert hcommand, fun name hname => ?_⟩
    have hmem : name ∈ catalog.names := (List.mem_filter.mp hname).1
    obtain ⟨x, hx, rfl⟩ := List.mem_map.mp hmem
    have hget : catalog.get? x.name = some x := Catalog.get?_eq_some_iff.mpr ⟨hx, rfl⟩
    have hfound := (get?_of_mapColumns catalog.nodup hcolumns).1 x hx
    refine ⟨x, hget, ?_⟩
    unfold Config.cell
    cases hvalue : row.get? x.name with
    | none =>
      rw [hvalue] at hfound
      rw [given?, find?_eq_none_of_mapColumn hfound]
      exact .missing
    | some j =>
      rw [hvalue] at hfound
      exact binds_of_mapColumn hget hfound
  · intro c filter returning command hcommand
    refine ⟨Config.params_update hcommand, fun field hfield => ?_⟩
    obtain ⟨x, hx, hname, hfound⟩ := exists_column_of_mem hcolumns hfield
    have hget : catalog.get? x.name = some x := Catalog.get?_eq_some_iff.mpr ⟨hx, rfl⟩
    rw [← hname]
    exact ⟨x, hget, binds_of_mapColumn hget hfound⟩
  · intro field hfield
    obtain ⟨x, hx, hname, hfound⟩ := exists_column_of_mem hcolumns hfield
    exact ⟨x, Catalog.get?_eq_some_iff.mpr ⟨hx, hname⟩, param?_of_mapColumn hfound⟩

theorem binds_of_map_nested :
    let catalog := Catalog.ofList
      [⟨"free_days", .array (.array .date), false⟩, ⟨"home", .point, true⟩,
       ⟨"kind", .enum ["A", "b"], true⟩, ⟨"note", .jsonb, false⟩]
    let spot := Json.object [("x", .number (.int 1)), ("y", .number (.int (-2)))]
    let days := Json.array [.null, .array [.string "2024-02-29", .null]]
    let fields : Record :=
      [("home", spot), ("freeDays", days), ("kind", .string "b"), ("note", .null)]
    let row : Record :=
      [("free_days", days), ("home", spot), ("kind", .string "b"), ("note", .null)]
    map catalog .camel false (.object fields) = .ok row ∧
      ∀ name ∈ ["free_days", "home", "kind", "note"],
        catalog.Binds .camel (.object fields) name (Config.cell catalog row name).params := by
  intro catalog spot days fields row
  have hday : (Json.string "2024-02-29").toTimestamp?.isSome = true := by decide +kernel
  have hfinite : (ColumnType.isFiniteNumber (.number (.int 1)) &&
      ColumnType.isFiniteNumber (.number (.int (-2)))) = true := by decide +kernel
  have hdate : ColumnType.date.checkScalar (.string "2024-02-29") =
      some (.string "2024-02-29") := by
    simp only [ColumnType.checkScalar, ColumnType.keepIf, hday, if_true]
  have hfree : mapColumn catalog .camel false fields ⟨"free_days", .array (.array .date), false⟩ =
      .ok (some days) := by
    have hfind : find? .camel fields "free_days" = some days := rfl
    have hcheck : (ColumnType.array (.array .date)).check days = some days := by
      simp only [days, ColumnType.check, List.mapM_cons, List.mapM_nil, ColumnType.orNull,
        Json.isNull, Bool.false_eq_true, if_true, if_false, hdate]
      rfl
    rw [mapColumn, hfind]
    dsimp only [days]
    rw [hcheck]
  have hhome : mapColumn catalog .camel false fields ⟨"home", .point, true⟩ = .ok (some spot) := by
    have hfind : find? .camel fields "home" = some spot := rfl
    rw [mapColumn, hfind]
    dsimp only [spot, ColumnType.check, ColumnType.checkScalar]
    rw [ColumnType.checkPoint_of_finite rfl rfl hfinite]
  have hothers : mapColumns catalog .camel false fields
      [⟨"kind", .enum ["A", "b"], true⟩, ⟨"note", .jsonb, false⟩] = .ok (row.drop 2) := rfl
  have hcolumns : catalog.columns = [⟨"free_days", .array (.array .date), false⟩,
    ⟨"home", .point, true⟩, ⟨"kind", .enum ["A", "b"], true⟩, ⟨"note", .jsonb, false⟩] := rfl
  have h : map catalog .camel false (.object fields) = .ok row := by
    rw [map, hcolumns, mapColumns, mapColumns, hfree, hhome, hothers]
    rfl
  refine ⟨h, ?_⟩
  exact ((binds_of_map h).1 (.ofTable "people" catalog) [row] [] _ (List.mem_singleton_self row)
    rfl).2

end Payload

end SingleTable
