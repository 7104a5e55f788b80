import SingleTable.Config.Document
import SingleTable.Proofs.ColumnType.Tag
import SingleTable.Proofs.Payload.Remapping

/-! # Configurations that are stored

A configuration that is written as a document is read back from it, whatever document it was first
read from: what the first reading forgets, such as blanks, other fields and replaced columns, is not
in the configuration.

* `Catalog.ofList_columns`: a catalog is built from its own columns.
* `Catalog.IsNamed`: the types of a catalog's columns have tags, as in every catalog that was read.
* `Config.ofJson?_stored`: a configuration that was read is read back from its document.
-/

namespace SingleTable

theorem Dialect.ofJson?_toJson (d : Dialect) : ofJson? d.toJson = some d := by cases d <;> rfl

theorem Naming.ofJson?_toJson (n : Naming) : ofJson? n.toJson = some n := by cases n <;> rfl

/-! ## Columns -/

namespace Column

def IsNamed (x : Column) : Prop := x.type.IsNamed

theorem isNamed_of_ofJson? {j : Json} {x : Column} (h : ofJson? j = some x) : x.IsNamed := by
  obtain ⟨field, -, h⟩ := Option.bind_eq_some_iff.mp h
  obtain ⟨nameField, -, h⟩ := Option.bind_eq_some_iff.mp h
  obtain ⟨name, -, h⟩ := Option.bind_eq_some_iff.mp h
  obtain ⟨typeField, -, h⟩ := Option.bind_eq_some_iff.mp h
  obtain ⟨tag, -, h⟩ := Option.bind_eq_some_iff.mp h
  obtain ⟨type, htype, h⟩ := Option.bind_eq_some_iff.mp h
  obtain ⟨required, -, h⟩ := Option.bind_eq_some_iff.mp h
  obtain rfl := Option.some.inj h
  cases hread : ColumnType.read tag with
  | error e =>
    rw [hread] at htype
    cases htype
  | ok t =>
    rw [hread] at htype
    obtain rfl := Option.some.inj htype
    exact ColumnType.isNamed_of_readChars hread

theorem ofJson?_toJson {x : Column} (h : x.IsNamed) : ofJson? x.toJson = some x := by
  have hread : ColumnType.read x.type.text = .ok x.type := ColumnType.readChars_text h
  have htype : (ColumnType.read x.type.text).toOption = some x.type := by rw [hread]; rfl
  change ((ColumnType.read x.type.text).toOption.bind fun type =>
    some (Column.mk x.name type x.required)) = some x
  rw [htype]
  rfl

end Column

/-! ## Catalogs -/

namespace Catalog

theorem place_of_new {x : Column} {xs : List Column} (h : x.name ∉ xs.map Column.name) :
    place x xs = xs ++ [x] := by
  induction xs with
  | nil => rfl
  | cons y xs ih =>
    rw [List.map_cons, List.mem_cons, not_or] at h
    rw [place, if_neg (Ne.symm h.1), ih h.2, List.cons_append]

theorem columns_foldl_insert {xs : List Column} {c : Catalog}
    (h : ((c.columns ++ xs).map Column.name).Nodup) :
    (xs.foldl insert c).columns = c.columns ++ xs := by
  induction xs generalizing c with
  | nil => exact (List.append_nil _).symm
  | cons x xs ih =>
    have hnew : x.name ∉ c.columns.map Column.name := by
      rw [List.map_append, List.nodup_append] at h
      exact fun hx => h.2.2 _ hx _ (List.mem_map_of_mem List.mem_cons_self) rfl
    have hplace : (c.insert x).columns = c.columns ++ [x] := place_of_new hnew
    have happend : (c.insert x).columns ++ xs = c.columns ++ x :: xs := by
      rw [hplace, List.append_assoc, List.singleton_append]
    rw [List.foldl_cons, ih (by rwa [happend]), happend]

/-- Columns of different names stand in a catalog as they were given. -/
theorem ofList_columns (c : Catalog) : ofList c.columns = c :=
  ext (columns_foldl_insert c.nodup)

theorem mem_place {x y : Column} {xs : List Column} (h : y ∈ place x xs) : y = x ∨ y ∈ xs := by
  induction xs with
  | nil => exact .inl (List.mem_singleton.mp h)
  | cons z xs ih =>
    rw [place] at h
    split at h
    · exact (List.mem_cons.mp h).imp_right (List.mem_cons_of_mem z)
    · rcases List.mem_cons.mp h with rfl | h
      · exact .inr List.mem_cons_self
      · exact (ih h).imp_right (List.mem_cons_of_mem z)

theorem mem_foldl_insert {xs : List Column} {c : Catalog} {y : Column}
    (h : y ∈ (xs.foldl insert c).columns) : y ∈ c.columns ∨ y ∈ xs := by
  induction xs generalizing c with
  | nil => exact .inl h
  | cons x xs ih =>
    rcases ih h with h | h
    · rcases mem_place h with rfl | h
      · exact .inr List.mem_cons_self
      · exact .inl h
    · exact .inr (List.mem_cons_of_mem x h)

theorem mem_of_mem_ofList {xs : List Column} {y : Column} (h : y ∈ (ofList xs).columns) : y ∈ xs :=
  (mem_foldl_insert h).resolve_left nofun

def IsNamed (c : Catalog) : Prop := ∀ x ∈ c.columns, x.IsNamed

theorem isNamed_of_ofJson? {j : Json} {c : Catalog} (h : ofJson? j = some c) : c.IsNamed := by
  cases j with
  | array items =>
    obtain ⟨xs, hxs, rfl⟩ := Option.map_eq_some_iff.mp h
    intro x hx
    obtain ⟨j, -, hj⟩ := exists_of_mem_right (mapM_eq_some_iff.mp hxs) (mem_of_mem_ofList hx)
    exact Column.isNamed_of_ofJson? hj
  | _ => cases h

theorem ofJson?_toJson {c : Catalog} (h : c.IsNamed) : ofJson? c.toJson = some c := by
  have hcolumns : (c.columns.map Column.toJson).mapM Column.ofJson? = some c.columns := by
    rw [mapM_eq_some_iff, List.forall₂_map_left_iff]
    exact List.forall₂_same.mpr fun x hx => Column.ofJson?_toJson (h x hx)
  rw [toJson, ofJson?, hcolumns, Option.map_some, ofList_columns]

end Catalog

/-! ## Configurations -/

namespace Config

theorem isNamed_of_ofJson? {j : Json} {c : Config} (h : ofJson? j = some c) :
    c.columns.IsNamed := by
  obtain ⟨field, -, h⟩ := Option.bind_eq_some_iff.mp h
  obtain ⟨_, -, h⟩ := Option.bind_eq_some_iff.mp h
  obtain ⟨table, -, h⟩ := Option.bind_eq_some_iff.mp h
  obtain ⟨dialect, -, h⟩ := Option.bind_eq_some_iff.mp h
  obtain ⟨columns, hcolumns, h⟩ := Option.bind_eq_some_iff.mp h
  obtain ⟨_, -, h⟩ := Option.bind_eq_some_iff.mp h
  obtain ⟨_, -, h⟩ := Option.bind_eq_some_iff.mp h
  obtain ⟨_, -, h⟩ := Option.bind_eq_some_iff.mp h
  obtain ⟨_, -, h⟩ := Option.bind_eq_some_iff.mp h
  obtain ⟨_, -, h⟩ := Option.bind_eq_some_iff.mp h
  obtain ⟨_, -, h⟩ := Option.bind_eq_some_iff.mp h
  obtain ⟨_, -, h⟩ := Option.bind_eq_some_iff.mp h
  obtain rfl := Option.some.inj h
  cases hfield : field "columns" with
  | none =>
    rw [hfield] at hcolumns
    obtain rfl := Option.some.inj hcolumns
    exact nofun
  | some j =>
    rw [hfield] at hcolumns
    exact Catalog.isNamed_of_ofJson? hcolumns

theorem nullable_textOrNull (s : Option String) :
    Json.nullable? Json.text? (textOrNull s) = some s := by
  cases s <;> rfl

theorem nullable_truthOrNull (b : Option Bool) :
    Json.nullable? Json.truth? (b.elim .null .bool) = some b := by
  cases b <;> rfl

/-- A configuration is read back field by field. -/
theorem ofJson?_toJson {c : Config} (h : c.columns.IsNamed) : ofJson? c.toJson = some c := by
  simp [ofJson?, toJson, Json.positions?, Record.get?, List.lookup_cons, Json.fieldOr, Json.text?,
    Json.truth?, Dialect.ofJson?_toJson, Naming.ofJson?_toJson, Catalog.ofJson?_toJson h,
    nullable_textOrNull, nullable_truthOrNull]

/-- **A configuration is read back from its document**, whatever document it was read from. -/
theorem ofJson?_stored {j : Json} {c : Config} (h : ofJson? j = some c) :
    ofJson? c.toJson = some c :=
  ofJson?_toJson (isNamed_of_ofJson? h)

theorem ofJson?_stored_odd :
    let column (name tag : String) := Json.object [("type", .string tag), ("name", .string name)]
    let columns := Json.array
      [column "kind" "int", column "tags" " TEXT[] []\t", column "size" "Enum[ A,, b ,Á]] ",
       .array [.string "kind", .string "DateTime[][]", .bool true]]
    let j := Json.object
      [("naming", .object [("snake", .null)]), ("columns", columns), ("table", .string "t;"),
       ("deleted_column", .string ""), ("soft_delete", .null), ("other", .null)]
    let c := { ofTable "t;" (.ofList
      [⟨"kind", .array (.array .dateTime), true⟩, ⟨"tags", .array (.array .string), false⟩,
       ⟨"size", .enum ["A", "b", "Á]"], false⟩]) with deletedColumn := some "", naming := .snake }
    ofJson? j = some c ∧ ofJson? c.toJson = some c := by
  intro column columns j c
  have h : ofJson? j = some c := by decide +kernel
  exact ⟨h, ofJson?_stored h⟩

end Config

end SingleTable
