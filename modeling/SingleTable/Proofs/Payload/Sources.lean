import Mathlib.Data.List.Nodup
import SingleTable.Proofs.Payload.Shape
import SingleTable.Proofs.Text.Camel

/-! # Where the values of a record come from

Each column of a mapped record has its value from one field of the payload. A column is looked for
under two keys, so that two columns whose names have the same camel case may have their values from
the same field, even if the payload has a field for each of them.

* `Payload.source?`: the key from which a column has its value.
* `Payload.SharedKey`: when two columns of a catalog have theirs from the same key.
* `Payload.sources_of_map`: the values of a record, and which of them have a field of their own.
-/

namespace SingleTable.Payload

/-- The first of the two keys of a column that the payload has. -/
def source? (n : Naming) (payload : Record) (column : String) : Option String :=
  (n.candidates column).find? payload.contains

/-- Two names have the same camel case, under which the payload has a field. If names come first,
neither name is itself a key, unless it is that camel case. -/
def SharedKey (n : Naming) (payload : Record) (column other : String) : Prop :=
  Text.camel column = Text.camel other ∧ payload.contains (Text.camel column) = true ∧
    (n = .snake → ∀ name ∈ [column, other], payload.contains name = true →
      name = Text.camel column)

section Keys
variable {payload : Record} {column other key : String}

theorem find?_eq_source (n : Naming) (payload : Record) (column : String) :
    find? n payload column = (source? n payload column).bind payload.get? := by
  have hall : ∀ keys : List String,
      keys.findSome? payload.get? = (keys.find? payload.contains).bind payload.get? := by
    intro keys
    induction keys with
    | nil => rfl
    | cons key keys ih =>
      rw [List.findSome?_cons, List.find?_cons]
      unfold Record.contains
      cases h : payload.get? key with
      | none => exact ih
      | some j => exact h.symm
  exact hall (n.candidates column)

theorem source?_snake (payload : Record) (column : String) :
    source? .snake payload column =
      if payload.contains column then some column
      else if payload.contains (Text.camel column) then some (Text.camel column) else none := by
  change List.find? payload.contains [column, Text.camel column] = _
  rw [List.find?_cons, List.find?_cons]
  cases payload.contains column <;> cases payload.contains (Text.camel column) <;> rfl

theorem source?_camel (payload : Record) (column : String) :
    source? .camel payload column =
      if payload.contains (Text.camel column) then some (Text.camel column)
      else if payload.contains column then some column else none := by
  change List.find? payload.contains [Text.camel column, column] = _
  rw [List.find?_cons, List.find?_cons]
  cases payload.contains (Text.camel column) <;> cases payload.contains column <;> rfl

/-- A name that is the camel case of a snake case name is its own camel case. -/
theorem camel_eq_self (hcolumn : Text.IsSnake column) (hother : Text.IsSnake other)
    (h : column = Text.camel other) : Text.camel column = column := by
  subst h
  exact Text.camel_camel hother hcolumn

theorem source?_eq_iff (n : Naming) (hcolumn : Text.IsSnake column) (hother : Text.IsSnake other)
    (hne : column ≠ other) (hfound : source? n payload column ≠ none)
    (hfound' : source? n payload other ≠ none) :
    source? n payload column = source? n payload other ↔ SharedKey n payload column other := by
  have hcamel := camel_eq_self hcolumn hother
  have hcamel' := camel_eq_self hother hcolumn
  unfold SharedKey
  cases n with
  | snake =>
    rw [source?_snake, source?_snake] at *
    grind
  | camel =>
    rw [source?_camel, source?_camel] at *
    grind

theorem mem_pair_of_source {n : Naming} (h : source? n payload column = some key) :
    key = column ∨ key = Text.camel column := by
  have hmem := List.mem_of_find?_eq_some h
  cases n with
  | snake => exact List.mem_pair.mp hmem
  | camel => exact (List.mem_pair.mp hmem).symm

theorem contains_of_source {n : Naming} (h : source? n payload column = some key) :
    payload.contains key = true := List.find?_some h

theorem find?_of_source {n : Naming} (h : source? n payload column = some key) :
    ∃ j, payload.get? key = some j ∧ find? n payload column = some j := by
  obtain ⟨j, hj⟩ := Option.isSome_iff_exists.mp (contains_of_source h)
  refine ⟨j, hj, ?_⟩
  rw [find?_eq_source, h, Option.bind_some, hj]

end Keys

/-! ## Mapped records -/

section Mapped
variable {c : Catalog} {n : Naming} {isPartial : Bool} {payload r : Record} {x : Column}

theorem mapColumn_of_map (h : map c n isPartial (.object payload) = .ok r) (hx : x ∈ c.columns) :
    mapColumn c n isPartial payload x = .ok (r.get? x.name) := by
  obtain ⟨fields, hfields, hr⟩ := exists_of_map h
  obtain rfl := Json.object.inj hfields
  exact (get?_of_mapColumns c.nodup hr).1 x hx

/-- The value of a column is made of the value of its source, and of nothing else. -/
theorem kept_of_source (h : map c n isPartial (.object payload) = .ok r) (hx : x ∈ c.columns) :
    match source? n payload x.name with
    | none => r.get? x.name = none
    | some key => ∃ j k, payload.get? key = some j ∧ r.get? x.name = some k ∧
        (j = .null ∧ k = .null ∨ j ≠ .null ∧ x.type.check j = some k) := by
  have hcolumn := mapColumn_eq_ok (mapColumn_of_map h hx)
  cases hsource : source? n payload x.name with
  | none =>
    have hfind : find? n payload x.name = none := by rw [find?_eq_source, hsource, Option.bind_none]
    rw [hfind] at hcolumn
    rcases hcolumn with ⟨-, -, hr⟩ | ⟨hnone, -⟩ | ⟨j, k, -, hnone, -⟩
    · exact hr
    · cases hnone
    · cases hnone
  | some key =>
    obtain ⟨j, hj, hfind⟩ := find?_of_source hsource
    rw [hfind] at hcolumn
    refine ⟨j, ?_⟩
    rcases hcolumn with ⟨hnone, -⟩ | ⟨hnull, -, hr⟩ | ⟨j', k, hne, hfound, hcheck, hr⟩
    · cases hnone
    · exact ⟨.null, hj, hr, .inl ⟨Option.some.inj hnull, rfl⟩⟩
    · obtain rfl := Option.some.inj hfound
      exact ⟨k, hj, hr, .inr ⟨hne, hcheck⟩⟩

theorem source?_ne_none (h : map c n isPartial (.object payload) = .ok r) (hx : x ∈ c.columns)
    (hpresent : r.contains x.name = true) : source? n payload x.name ≠ none := by
  intro hnone
  have hkept := kept_of_source h hx
  rw [hnone] at hkept
  rw [Record.contains, hkept] at hpresent
  cases hpresent

end Mapped

theorem eq_of_camel_eq {c : Catalog} (hapart : (c.names.map Text.camel).Nodup) {name other : String}
    (hname : name ∈ c.names) (hother : other ∈ c.names)
    (h : Text.camel name = Text.camel other) : name = other :=
  List.inj_on_of_nodup_map hapart hname hother h

theorem name_ne {c : Catalog} {x y : Column} (hx : x ∈ c.columns) (hy : y ∈ c.columns)
    (hne : x ≠ y) : x.name ≠ y.name :=
  fun h => hne (List.inj_on_of_nodup_map c.nodup hx hy h)

/-- **Columns have their values from fields of their own, unless their names have one camel case.**
Every value of a record is kept of the value under one key of the payload. Two columns have theirs
from the same key exactly if it is the camel case of both names and the convention does not look for
one of the names first. If no two names of the catalog have the same camel case, no two columns
share a key, and a payload that uses the names themselves gives each column its own value. -/
theorem sources_of_map {c : Catalog} (hnames : ∀ name ∈ c.names, Text.IsSnake name) {n : Naming}
    {isPartial : Bool} {payload r : Record} (h : map c n isPartial (.object payload) = .ok r) :
    (∀ x ∈ c.columns, match source? n payload x.name with
      | none => r.get? x.name = none
      | some key => ∃ j k, payload.get? key = some j ∧ r.get? x.name = some k ∧
          (j = .null ∧ k = .null ∨ j ≠ .null ∧ x.type.check j = some k)) ∧
    (∀ x ∈ c.columns, ∀ y ∈ c.columns, x ≠ y → r.contains x.name = true →
      r.contains y.name = true →
      (source? n payload x.name = source? n payload y.name ↔
        SharedKey n payload x.name y.name)) ∧
    ((c.names.map Text.camel).Nodup →
      (∀ x ∈ c.columns, ∀ y ∈ c.columns, x ≠ y → r.contains x.name = true →
        r.contains y.name = true → source? n payload x.name ≠ source? n payload y.name) ∧
      ((∀ key, payload.contains key = true → key ∈ c.names) → ∀ x ∈ c.columns,
        r.contains x.name = true → source? n payload x.name = some x.name)) := by
  have hsnake : ∀ x ∈ c.columns, Text.IsSnake x.name :=
    fun x hx => hnames x.name (List.mem_map_of_mem hx)
  have hshared : ∀ x ∈ c.columns, ∀ y ∈ c.columns, x ≠ y → r.contains x.name = true →
      r.contains y.name = true → (source? n payload x.name = source? n payload y.name ↔
        SharedKey n payload x.name y.name) := by
    intro x hx y hy hne hpx hpy
    exact source?_eq_iff n (hsnake x hx) (hsnake y hy) (name_ne hx hy hne)
      (source?_ne_none h hx hpx) (source?_ne_none h hy hpy)
  refine ⟨fun x hx => kept_of_source h hx, hshared, fun hapart => ⟨?_, ?_⟩⟩
  · intro x hx y hy hne hpx hpy hsame
    have hcamel := ((hshared x hx y hy hne hpx hpy).mp hsame).1
    exact name_ne hx hy hne (eq_of_camel_eq hapart (List.mem_map_of_mem hx)
      (List.mem_map_of_mem hy) hcamel)
  · intro hkeys x hx hpresent
    obtain ⟨key, hkey⟩ := Option.ne_none_iff_exists'.mp (source?_ne_none h hx hpresent)
    have hname := hkeys key (contains_of_source hkey)
    rcases mem_pair_of_source hkey with rfl | rfl
    · exact hkey
    · have hself := camel_eq_self (hnames _ hname) (hsnake x hx) rfl
      rw [hkey, eq_of_camel_eq hapart hname (List.mem_map_of_mem hx) hself]

/-- Two columns that share no key, though one key is the camel case of the other name. -/
theorem sources_of_map_apart :
    let c := Catalog.ofList
      [⟨"id", .serial, false⟩, ⟨"first_name", .string, true⟩, ⟨"line_2", .string, false⟩]
    let payload : Record :=
      [("line_2", .null), ("firstName", .string "Ada"), ("line2", .string "b")]
    let r : Record := [("first_name", .string "Ada"), ("line_2", .string "b")]
    (∀ name ∈ c.names, Text.IsSnake name) ∧ (c.names.map Text.camel).Nodup ∧
      map c .camel false (.object payload) = .ok r ∧
      source? .camel payload "first_name" ≠ source? .camel payload "line_2" := by
  intro c payload r
  have hnames : ∀ name ∈ c.names, Text.IsSnake name := by decide +kernel
  have hapart : (c.names.map Text.camel).Nodup := by decide +kernel
  have hmap : map c .camel false (.object payload) = .ok r := rfl
  obtain ⟨-, -, hdistinct⟩ := sources_of_map hnames hmap
  have hne := (hdistinct hapart).1 ⟨"first_name", .string, true⟩ (by decide +kernel)
    ⟨"line_2", .string, false⟩ (by decide +kernel) (by decide +kernel) rfl rfl
  exact ⟨hnames, hapart, hmap, hne⟩

/-- A payload with a field for each of two columns gives both of them the value of the first. -/
theorem sources_of_map_shared :
    let c := Catalog.ofList [⟨"a1", .integer, false⟩, ⟨"a_1", .integer, false⟩]
    let payload : Record := [("a1", .number (.int 1)), ("a_1", .number (.int 2))]
    (∀ name ∈ c.names, Text.IsSnake name) ∧
      map c .camel true (.object payload) =
        .ok [("a1", .number (.int 1)), ("a_1", .number (.int 1))] ∧
      source? .camel payload "a1" = some "a1" ∧ source? .camel payload "a_1" = some "a1" := by
  intro c payload
  have hnames : ∀ name ∈ c.names, Text.IsSnake name := by decide +kernel
  exact ⟨hnames, rfl, by decide +kernel, by decide +kernel⟩

end SingleTable.Payload
