import Mathlib.Data.String.Basic
import SingleTable.Proofs.Config.Stored

/-! # Catalogs with an index

A catalog can be built in one pass that keeps its columns in an array and the place of each name in
a table. A later column of a name is put where the table says, and lookups go through the table too,
so that a wrong place would be an access outside of the array.

* `Indexed`: the array and the table; `Indexed.ofList?` is the pass, `Indexed.get?` and the others
  are lookups. An access outside of the array gives none.
* `Indexed.Represents`: the array holds the columns of a catalog, and the table their places. Each
  step of the pass keeps it (`Represents.exists_add?`).
* `Catalog.ofList_exact`: which catalog a list of columns gives, and that the pass builds it.
-/

namespace SingleTable

/-! ## Lookups -/

namespace Catalog

theorem index?_eq_some_iff {c : Catalog} {name : String} {i : Nat} :
    c.index? name = some i ↔ c.names[i]? = some name := by
  have hinj := c.nodup
  rw [index?, List.findIdx?_eq_some_iff_getElem, names, List.getElem?_map, Option.map_eq_some_iff]
  constructor
  · rintro ⟨hi, hname, -⟩
    exact ⟨c.columns[i], List.getElem?_eq_getElem hi, beq_iff_eq.mp hname⟩
  · rintro ⟨x, hx, hname⟩
    obtain ⟨hi, rfl⟩ := List.getElem?_eq_some_iff.mp hx
    refine ⟨hi, beq_iff_eq.mpr hname, fun j hj hsame => ?_⟩
    have hbound : j < (c.columns.map Column.name).length := by
      rw [List.length_map]
      omega
    have hnames : (c.columns.map Column.name)[j]? = (c.columns.map Column.name)[i]? := by
      rw [List.getElem?_map, List.getElem?_map, List.getElem?_eq_getElem hi,
        List.getElem?_eq_getElem (hj.trans hi), Option.map_some, Option.map_some, hname,
        beq_iff_eq.mp hsame]
    exact absurd ((List.getElem?_inj hbound hinj).mp hnames) (Nat.ne_of_lt hj)

theorem index?_eq_none_iff {c : Catalog} {name : String} :
    c.index? name = none ↔ name ∉ c.names := by
  rw [Option.eq_none_iff_forall_ne_some, List.mem_iff_getElem?, not_exists]
  exact forall_congr' fun i => not_congr index?_eq_some_iff

/-- Places depend on the names alone. -/
theorem index?_congr {c d : Catalog} (h : c.names = d.names) (name : String) :
    c.index? name = d.index? name := by
  ext i
  rw [index?_eq_some_iff, index?_eq_some_iff, h]

theorem get?_eq_bind_index? (c : Catalog) (name : String) :
    c.get? name = (c.index? name).bind fun i => c.columns[i]? :=
  List.find?_eq_bind_findIdx?_getElem?

theorem isSome_index? (c : Catalog) (name : String) :
    (c.index? name).isSome = c.contains name := by
  rw [Bool.eq_iff_iff, contains_iff_mem_names, ← not_iff_not, ← index?_eq_none_iff]
  exact Option.not_isSome_iff_eq_none

/-! ## One more column -/

theorem names_insert (c : Catalog) (x : Column) :
    (c.insert x).names = if x.name ∈ c.names then c.names else c.names ++ [x.name] :=
  map_name_place x c.columns

theorem get?_insert (c : Catalog) (x : Column) (name : String) :
    (c.insert x).get? name = if x.name = name then some x else c.get? name := by
  change (place x c.columns).find? _ = if _ then _ else c.columns.find? _
  generalize c.columns = cs
  induction cs with
  | nil => by_cases hx : x.name = name <;> simp [place, hx]
  | cons y cs ih =>
    by_cases hy : y.name = x.name
    · rw [place, if_pos hy]
      by_cases hx : x.name = name <;> simp [hy, hx]
    · rw [place, if_neg hy]
      by_cases hname : y.name = name
      · have hx : x.name ≠ name := fun hx => hy (hname.trans hx.symm)
        simp [hname, hx]
      · simp [hname, ih]

theorem columns_insert_of_index? {c : Catalog} {x : Column} {i : Nat}
    (h : c.index? x.name = some i) : (c.insert x).columns = c.columns.set i x := by
  change place x c.columns = _
  unfold index? at h
  generalize c.columns = cs at h ⊢
  induction cs generalizing i with
  | nil => cases h
  | cons y cs ih =>
    rw [List.findIdx?_cons] at h
    by_cases hy : y.name = x.name
    · rw [if_pos (beq_iff_eq.mpr hy)] at h
      obtain rfl := Option.some.inj h
      rw [place, if_pos hy, List.set_cons_zero]
    · rw [if_neg (by simpa using hy)] at h
      obtain ⟨j, hj, rfl⟩ := Option.map_eq_some_iff.mp h
      rw [place, if_neg hy, List.set_cons_succ, ih hj]

theorem columns_insert_of_notMem {c : Catalog} {x : Column} (h : x.name ∉ c.names) :
    (c.insert x).columns = c.columns ++ [x] := place_of_new h

theorem index?_insert_of_mem {c : Catalog} {x : Column} (h : x.name ∈ c.names) (name : String) :
    (c.insert x).index? name = c.index? name :=
  index?_congr (by rw [names_insert, if_pos h]) name

theorem index?_insert_of_notMem {c : Catalog} {x : Column} (h : x.name ∉ c.names) (name : String) :
    (c.insert x).index? name = if x.name = name then some c.size else c.index? name := by
  have hsize : c.names.length = c.size := List.length_map _
  ext i
  rw [index?_eq_some_iff, names_insert, if_neg h]
  split
  · rename_i hname
    subst hname
    rw [Option.some.injEq, ← hsize]
    constructor
    · intro hi
      by_contra hne
      obtain ⟨hlt, -⟩ := List.getElem?_eq_some_iff.mp hi
      have hbound : i < c.names.length := by
        rw [List.length_append, List.length_singleton] at hlt
        omega
      rw [List.getElem?_append_left hbound] at hi
      exact h (List.mem_of_getElem? hi)
    · rintro rfl
      exact List.getElem?_concat_length
  · rename_i hname
    rw [index?_eq_some_iff]
    by_cases hi : i < c.names.length
    · rw [List.getElem?_append_left hi]
    · have hout : c.names[i]? = none := List.getElem?_eq_none (by omega)
      rw [List.getElem?_append_right (by omega), hout]
      constructor
      · intro hlast
        obtain ⟨_, hget⟩ := List.getElem?_eq_some_iff.mp hlast
        rw [List.getElem_singleton] at hget
        exact absurd hget hname
      · nofun

/-! ## All columns -/

theorem ofList_concat (xs : List Column) (x : Column) : ofList (xs ++ [x]) = (ofList xs).insert x :=
  List.foldl_concat insert empty x xs

/-- Names stand in the order in which they were met first. -/
theorem names_ofList (xs : List Column) : (ofList xs).names = (xs.map Column.name).eraseDups := by
  induction xs using List.reverseRecOn with
  | nil => rfl
  | append_singleton xs x ih =>
    rw [ofList_concat, names_insert, ih, List.map_append, List.map_singleton, List.eraseDups_append]
    split
    · rename_i h
      have hgone : [x.name].removeAll (xs.map Column.name) = [] := by
        simpa [List.removeAll] using h
      rw [hgone, List.eraseDups_nil, List.append_nil]
    · rename_i h
      have hkept : [x.name].removeAll (xs.map Column.name) = [x.name] := by
        simpa [List.removeAll] using h
      rw [hkept]
      rfl

/-- The last column of a name is the one that stays. -/
theorem get?_ofList (xs : List Column) (name : String) :
    (ofList xs).get? name = (xs.filter fun x => x.name == name).getLast? := by
  induction xs using List.reverseRecOn with
  | nil => rfl
  | append_singleton xs x ih =>
    rw [ofList_concat, get?_insert, ih, List.filter_append]
    by_cases h : x.name = name <;> simp [h]

theorem get?_without (c : Catalog) (names : List String) (name : String) :
    (c.without names).get? name = if name ∈ names then none else c.get? name := by
  ext x
  rw [get?_eq_some_iff, mem_without]
  split
  · rename_i hname
    simp only [reduceCtorEq, iff_false, not_and]
    rintro ⟨-, hx⟩ rfl
    exact hx hname
  · rename_i hname
    rw [get?_eq_some_iff]
    constructor
    · rintro ⟨⟨hx, -⟩, he⟩
      exact ⟨hx, he⟩
    · rintro ⟨hx, rfl⟩
      exact ⟨⟨hx, hname⟩, rfl⟩

end Catalog

/-! ## The pass -/

/-- Columns in an array, and the place of each name. -/
structure Indexed where
  columns : Array Column
  places : Std.ExtHashMap String Nat

namespace Indexed

def empty : Indexed := ⟨#[], ∅⟩

/-- Overwrites the column at the place of its name, or adds one with the next place. -/
def add? (t : Indexed) (x : Column) : Option Indexed :=
  match t.places[x.name]? with
  | some i => if h : i < t.columns.size then some ⟨t.columns.set i x, t.places⟩ else none
  | none => some ⟨t.columns.push x, t.places.insert x.name t.columns.size⟩

def ofList? (xs : List Column) : Option Indexed := xs.foldlM add? empty

/-- The column at the place of a name, if the name has one. -/
def get? (t : Indexed) (name : String) : Option (Option Column) :=
  match t.places[name]? with
  | some i => t.columns[i]?.map some
  | none => some none

def contains (t : Indexed) (name : String) : Bool := t.places.contains name

/-- The pass over the columns that are not named. -/
def without? (t : Indexed) (names : List String) : Option Indexed :=
  ofList? (t.columns.toList.filter fun x => !names.contains x.name)

/-! ## What an array and a table stand for -/

structure Represents (t : Indexed) (c : Catalog) : Prop where
  columns : t.columns.toList = c.columns
  places : ∀ name, t.places[name]? = c.index? name

variable {t : Indexed} {c : Catalog}

theorem represents_empty : empty.Represents .empty :=
  ⟨rfl, fun _ => Std.ExtHashMap.getElem?_empty⟩

theorem Represents.size (h : t.Represents c) : t.columns.size = c.size := by
  rw [← Array.length_toList, h.columns]
  rfl

theorem Represents.unique {t' : Indexed} (h : t.Represents c) (h' : t'.Represents c) : t = t' := by
  obtain ⟨columns, places⟩ := t
  obtain ⟨columns', places'⟩ := t'
  obtain rfl : columns = columns' := Array.toList_inj.mp (h.columns.trans h'.columns.symm)
  obtain rfl : places = places' :=
    Std.ExtHashMap.ext_getElem? fun name => (h.places name).trans (h'.places name).symm
  rfl

/-- The place of a name lies in the array. -/
theorem Represents.lt_size (h : t.Represents c) {name : String} {i : Nat}
    (hi : t.places[name]? = some i) : i < t.columns.size := by
  rw [h.places, Catalog.index?_eq_some_iff] at hi
  obtain ⟨hlt, -⟩ := List.getElem?_eq_some_iff.mp hi
  rw [h.size]
  simpa [Catalog.names, Catalog.size] using hlt

/-- **A step finds its place** and keeps the array and the table in step. -/
theorem Represents.exists_add? (h : t.Represents c) (x : Column) :
    ∃ t', t.add? x = some t' ∧ t'.Represents (c.insert x) := by
  unfold add?
  cases hplace : t.places[x.name]? with
  | some i =>
    have hindex : c.index? x.name = some i := (h.places x.name).symm.trans hplace
    have hmem : x.name ∈ c.names := List.mem_of_getElem? (Catalog.index?_eq_some_iff.mp hindex)
    refine ⟨_, dif_pos (h.lt_size hplace), ?_, fun name => ?_⟩
    · rw [Array.toList_set, h.columns, Catalog.columns_insert_of_index? hindex]
    · rw [h.places, Catalog.index?_insert_of_mem hmem]
  | none =>
    have hnew : x.name ∉ c.names :=
      Catalog.index?_eq_none_iff.mp ((h.places x.name).symm.trans hplace)
    refine ⟨_, rfl, ?_, fun name => ?_⟩
    · rw [Array.toList_push, h.columns, Catalog.columns_insert_of_notMem hnew]
    · rw [Std.ExtHashMap.getElem?_insert, h.places, h.size, Catalog.index?_insert_of_notMem hnew]
      simp only [beq_iff_eq]

theorem Represents.exists_foldlM (h : t.Represents c) (xs : List Column) :
    ∃ t', xs.foldlM add? t = some t' ∧ t'.Represents (xs.foldl Catalog.insert c) := by
  induction xs generalizing t c with
  | nil => exact ⟨t, rfl, h⟩
  | cons x xs ih =>
    obtain ⟨t', hadd, ht'⟩ := h.exists_add? x
    obtain ⟨t'', hrest, ht''⟩ := ih ht'
    refine ⟨t'', ?_, ht''⟩
    rw [List.foldlM_cons, hadd]
    exact hrest

theorem exists_ofList? (xs : List Column) :
    ∃ t, ofList? xs = some t ∧ t.Represents (.ofList xs) := represents_empty.exists_foldlM xs

theorem Represents.get?_eq (h : t.Represents c) (name : String) :
    t.get? name = some (c.get? name) := by
  unfold get?
  rw [c.get?_eq_bind_index?, ← h.places]
  cases hplace : t.places[name]? with
  | none => rfl
  | some i =>
    have hi := h.lt_size hplace
    have hcolumn : c.columns[i]? = some t.columns[i] := by
      rw [← h.columns, Array.getElem?_toList, Array.getElem?_eq_getElem hi]
    simp only [Option.bind_some, hcolumn, Array.getElem?_eq_getElem hi, Option.map_some]

theorem Represents.contains_eq (h : t.Represents c) (name : String) :
    t.contains name = c.contains name := by
  rw [contains, Std.ExtHashMap.contains_eq_isSome_getElem?, h.places, c.isSome_index?]

/-- The pass over the columns of a catalog builds what stands for it. -/
theorem Represents.ofList?_columns (h : t.Represents c) : ofList? t.columns.toList = some t := by
  obtain ⟨t', hpass, ht'⟩ := exists_ofList? t.columns.toList
  rw [h.columns, c.ofList_columns] at ht'
  rw [hpass, h.unique ht']

theorem Represents.exists_without? (h : t.Represents c) (names : List String) :
    ∃ t', t.without? names = some t' ∧ t'.Represents (c.without names) := by
  obtain ⟨t', hpass, ht'⟩ := exists_ofList? (c.without names).columns
  rw [Catalog.ofList_columns] at ht'
  refine ⟨t', ?_, ht'⟩
  rw [without?, h.columns]
  exact hpass

/-- Everything that an array with its table says of names is right. -/
structure IsExact (t : Indexed) (c : Catalog) : Prop where
  columns : t.columns.toList = c.columns
  places : ∀ (name : String) (i : Nat), t.places[name]? = some i ↔ c.names[i]? = some name
  index : ∀ name, t.places[name]? = c.index? name
  get : ∀ name, t.get? name = some (c.get? name)
  contains : ∀ name, t.contains name = c.contains name
  names : ∀ name, c.contains name = true ↔ name ∈ c.names
  rebuilt : ofList? t.columns.toList = some t ∧ .ofList c.columns = c

theorem Represents.isExact (h : t.Represents c) : t.IsExact c where
  columns := h.columns
  places name i := by rw [h.places, Catalog.index?_eq_some_iff]
  index := h.places
  get := h.get?_eq
  contains := h.contains_eq
  names _ := Catalog.contains_iff_mem_names
  rebuilt := ⟨h.ofList?_columns, c.ofList_columns⟩

end Indexed

/-! ## Catalogs of lists -/

namespace Catalog

/-- **A catalog holds the last column of each name, in the order in which the names came up**, and
the pass with an index builds it without an access outside of its array. So does the pass over the
columns that remain when some are taken out. -/
theorem ofList_exact (xs : List Column) :
    (ofList xs).names = (xs.map Column.name).eraseDups ∧
      (ofList xs).names.Nodup ∧
      (∀ name, (ofList xs).get? name = (xs.filter fun x => x.name == name).getLast?) ∧
      ∃ t, Indexed.ofList? xs = some t ∧ t.IsExact (ofList xs) ∧
        ∀ names, ∃ t', t.without? names = some t' ∧ t'.IsExact ((ofList xs).without names) ∧
          ((ofList xs).without names).columns =
            (ofList xs).columns.filter (fun x => x.name ∉ names) ∧
          ∀ name, ((ofList xs).without names).get? name =
            if name ∈ names then none else (ofList xs).get? name := by
  obtain ⟨t, hpass, ht⟩ := Indexed.exists_ofList? xs
  refine ⟨names_ofList xs, (ofList xs).nodup, get?_ofList xs, t, hpass, ht.isExact, fun names => ?_⟩
  obtain ⟨t', hwithout, ht'⟩ := ht.exists_without? names
  refine ⟨t', hwithout, ht'.isExact, ?_, get?_without _ names⟩
  simp [without]

end Catalog

end SingleTable
