import SingleTable.ColumnType
import SingleTable.Json.Basic

/-! # Column catalogs

* `Column`: a name, a type, and whether a row must have a value for it.
* `Catalog`: columns in their order, no two of one name.
* `Catalog.ofList`: a later column takes the place of an earlier one of its name.
* `Catalog.index?`, `get?`, `contains`, `without`: lookup by name, and a catalog with fewer columns.
* `Catalog.expected`: the document that shows a caller which columns there are.
-/

namespace SingleTable

structure Column where
  name : String
  type : ColumnType
  required : Bool
deriving DecidableEq

def Column.expected (x : Column) : Json :=
  .object [("type", .string x.type.text), ("required", .bool x.required)]

structure Catalog where
  columns : List Column
  nodup : (columns.map Column.name).Nodup
deriving DecidableEq

namespace Catalog

def names (c : Catalog) : List String := c.columns.map Column.name

def size (c : Catalog) : Nat := c.columns.length

def isEmpty (c : Catalog) : Bool := c.columns.isEmpty

def empty : Catalog := ⟨[], by simp⟩

instance : Inhabited Catalog := ⟨empty⟩

@[ext] theorem ext {c d : Catalog} (h : c.columns = d.columns) : c = d := by
  cases c; cases d; cases h; rfl

/-! ## Building -/

/-- Puts `x` where the column of its name stands, or at the end. -/
def place (x : Column) : List Column → List Column
  | [] => [x]
  | y :: r => if y.name = x.name then x :: r else y :: place x r

theorem map_name_place (x : Column) (cs : List Column) :
    (place x cs).map Column.name =
      if x.name ∈ cs.map Column.name then cs.map Column.name
      else cs.map Column.name ++ [x.name] := by
  induction cs with
  | nil => simp [place]
  | cons y r ih =>
    by_cases h : y.name = x.name
    · simp [place, h]
    · have h' : ¬ x.name = y.name := fun e => h e.symm
      simp only [place, h, if_false, List.map_cons, ih, List.mem_cons, h', false_or]
      split <;> simp

theorem nodup_place (x : Column) {cs : List Column} (h : (cs.map Column.name).Nodup) :
    ((place x cs).map Column.name).Nodup := by
  rw [map_name_place]
  split
  · exact h
  · rename_i hx
    rw [List.nodup_append]
    exact ⟨h, by simp, fun a ha b hb e => hx (by simp at hb; rw [← hb, ← e]; exact ha)⟩

def insert (c : Catalog) (x : Column) : Catalog := ⟨place x c.columns, nodup_place x c.nodup⟩

def ofList (xs : List Column) : Catalog := xs.foldl insert empty

/-! ## Lookup -/

def index? (c : Catalog) (name : String) : Option Nat :=
  c.columns.findIdx? fun x => x.name == name

def get? (c : Catalog) (name : String) : Option Column :=
  c.columns.find? fun x => x.name == name

def contains (c : Catalog) (name : String) : Bool := (c.get? name).isSome

def type? (c : Catalog) (name : String) : Option ColumnType := (c.get? name).map Column.type

theorem get?_eq_some_iff {c : Catalog} {name : String} {x : Column} :
    c.get? name = some x ↔ x ∈ c.columns ∧ x.name = name := by
  have h := c.nodup
  simp only [get?]
  generalize c.columns = xs at h
  induction xs with
  | nil => simp
  | cons y r ih =>
    rw [List.map_cons, List.nodup_cons] at h
    by_cases hy : y.name = name
    · simp only [List.find?_cons, hy, beq_self_eq_true, Option.some.injEq, List.mem_cons]
      constructor
      · rintro rfl
        exact ⟨.inl rfl, hy⟩
      · rintro ⟨rfl | hx, hn⟩
        · rfl
        · exact absurd (List.mem_map.2 ⟨x, hx, hn.trans hy.symm⟩) h.1
    · simp only [List.find?_cons, beq_eq_false_iff_ne.2 hy, ih h.2, List.mem_cons]
      constructor
      · exact fun hx => ⟨.inr hx.1, hx.2⟩
      · rintro ⟨rfl | hx, hn⟩
        · exact absurd hn hy
        · exact ⟨hx, hn⟩

theorem contains_iff_mem_names {c : Catalog} {name : String} :
    c.contains name = true ↔ name ∈ c.names := by
  simp only [contains, Option.isSome_iff_exists, get?_eq_some_iff, names, List.mem_map]

def without (c : Catalog) (names : List String) : Catalog where
  columns := c.columns.filter fun x => !names.contains x.name
  nodup := ((List.filter_sublist).map Column.name).nodup c.nodup

@[simp] theorem mem_without {c : Catalog} {names : List String} {x : Column} :
    x ∈ (c.without names).columns ↔ x ∈ c.columns ∧ x.name ∉ names := by
  simp [without]

/-! ## For callers -/

def expected (c : Catalog) : Json :=
  .object (c.columns.map fun x => (x.name, x.expected))

end Catalog

end SingleTable
