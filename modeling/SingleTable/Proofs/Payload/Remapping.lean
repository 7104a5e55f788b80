import Mathlib.Data.List.Forall2
import SingleTable.Payload

/-! # Mapping what has been mapped

A record that a payload was mapped to is itself a payload, and it is mapped to itself.

* `ColumnType.check_of_check`: a value that is kept for a column is kept as it is the next time.
* `Payload.get?_of_mapColumns`: the fields of a record, column by column.
* `Payload.mapColumn_eq_ok`: everything that the mapping of a column can find.
* `Catalog.KeysApart`: no column has the name of a key that is meant for another one.
* `Payload.map_of_map`: the second mapping changes nothing.
-/

namespace SingleTable

/-! ## Lists read item by item -/

theorem mapM_eq_some_iff {α β : Type} {f : α → Option β} {xs : List α} {ys : List β} :
    xs.mapM f = some ys ↔ List.Forall₂ (fun x y => f x = some y) xs ys := by
  induction xs generalizing ys with
  | nil =>
    rw [List.mapM_nil, List.forall₂_nil_left_iff]
    exact ⟨fun h => (Option.some.inj h).symm, fun h => h ▸ rfl⟩
  | cons x xs ih =>
    rw [List.mapM_cons, List.forall₂_cons_left_iff]
    constructor
    · intro h
      obtain ⟨y, hy, h⟩ := Option.bind_eq_some_iff.mp h
      obtain ⟨rest, hrest, h⟩ := Option.bind_eq_some_iff.mp h
      exact ⟨y, rest, hy, ih.mp hrest, (Option.some.inj h).symm⟩
    · rintro ⟨y, rest, hy, hrest, rfl⟩
      rw [hy, ih.mpr hrest]
      rfl

theorem exists_of_mem_right {α β : Type} {R : α → β → Prop} {xs : List α} {ys : List β}
    (h : List.Forall₂ R xs ys) {y : β} (hy : y ∈ ys) : ∃ x ∈ xs, R x y := by
  induction h with
  | nil => cases hy
  | cons hxy _ ih =>
    rcases List.mem_cons.mp hy with rfl | hy
    · exact ⟨_, List.mem_cons_self, hxy⟩
    · obtain ⟨x, hx, hfx⟩ := ih hy
      exact ⟨x, List.mem_cons_of_mem _ hx, hfx⟩

/-! ## Values that have been kept -/

namespace ColumnType

theorem eq_of_keepIf {b : Bool} {j k : Json} (h : keepIf b j = some k) : k = j := by
  unfold keepIf at h
  split at h
  · exact (Option.some.inj h).symm
  · cases h

theorem of_keepIf {b : Bool} {j k : Json} (h : keepIf b j = some k) : b = true := by
  unfold keepIf at h
  split at h
  · assumption
  · cases h

theorem exists_of_checkInteger {n : Number} {k : Json} (h : checkInteger n = some k) :
    ∃ m : Int, k = .number (.int m) := by
  cases n with
  | int m => exact ⟨m, (Option.some.inj h).symm⟩
  | double x =>
    dsimp only [checkInteger] at h
    split at h
    · exact ⟨_, (Option.some.inj h).symm⟩
    · cases h

theorem checkPoint_of_finite {j x y : Json} (hx : j.field? "x" = some x)
    (hy : j.field? "y" = some y) (h : (isFiniteNumber x && isFiniteNumber y) = true) :
    checkPoint j = some (.object [("x", x), ("y", y)]) := by
  rw [checkPoint, hx, hy]
  exact if_pos h

theorem exists_of_checkPoint {j k : Json} (h : checkPoint j = some k) :
    ∃ x y, (isFiniteNumber x && isFiniteNumber y) = true ∧ k = .object [("x", x), ("y", y)] := by
  obtain ⟨x, -, h⟩ := Option.bind_eq_some_iff.mp h
  obtain ⟨y, -, h⟩ := Option.bind_eq_some_iff.mp h
  split at h
  · rename_i hfinite
    exact ⟨x, y, hfinite, (Option.some.inj h).symm⟩
  · cases h

theorem checkPoint_of_checkPoint {j k : Json} (h : checkPoint j = some k) :
    checkPoint k = some k := by
  obtain ⟨x, y, hfinite, rfl⟩ := exists_of_checkPoint h
  exact checkPoint_of_finite rfl rfl hfinite

/-- Most values are kept as they are. Whole doubles become integers, documents become texts, and
points lose what is no coordinate. -/
theorem eq_or_of_checkScalar {t : ColumnType} {j k : Json} (h : t.checkScalar j = some k) :
    k = j ∨ ((t = integer ∨ t = serial) ∧ ∃ m : Int, k = .number (.int m)) ∨
      ((t = json ∨ t = jsonb) ∧ ∃ s, k = .string s) ∨ (t = point ∧ checkPoint j = some k) := by
  cases t with
  | boolean | string | number | float =>
    cases j <;> cases h
    exact .inl rfl
  | uuid | cidr | enum values =>
    cases j with
    | string s => exact .inl (eq_of_keepIf h)
    | _ => cases h
  | timestamp | date | dateTime =>
    cases j with
    | string s => exact .inl (eq_of_keepIf h)
    | number n => exact .inl (eq_of_keepIf h)
    | _ => cases h
  | integer =>
    cases j with
    | number n => exact .inr (.inl ⟨.inl rfl, exists_of_checkInteger h⟩)
    | _ => cases h
  | serial =>
    cases j with
    | number n => exact .inr (.inl ⟨.inr rfl, exists_of_checkInteger h⟩)
    | _ => cases h
  | json => exact .inr (.inr (.inl ⟨.inl rfl, by cases j <;> exact ⟨_, (Option.some.inj h).symm⟩⟩))
  | jsonb => exact .inr (.inr (.inl ⟨.inr rfl, by cases j <;> exact ⟨_, (Option.some.inj h).symm⟩⟩))
  | point => exact .inr (.inr (.inr ⟨rfl, h⟩))
  | array inner => cases h

theorem checkScalar_of_checkScalar {t : ColumnType} {j k : Json} (h : t.checkScalar j = some k) :
    t.checkScalar k = some k := by
  rcases eq_or_of_checkScalar h with rfl | ⟨rfl | rfl, m, rfl⟩ | ⟨rfl | rfl, s, rfl⟩ | ⟨rfl, hp⟩
  · exact h
  · rfl
  · rfl
  · rfl
  · rfl
  · exact checkPoint_of_checkPoint hp

theorem checkScalar_ne_null {t : ColumnType} {j : Json} : t.checkScalar j ≠ some .null := by
  intro h
  have hnull := checkScalar_of_checkScalar h
  cases t <;> cases hnull

theorem orNull_of_orNull {f : Json → Option Json}
    (hf : ∀ j k, f j = some k → f k = some k ∧ k ≠ .null) {j k : Json}
    (h : orNull f j = some k) : orNull f k = some k := by
  unfold orNull at h
  split at h
  · obtain rfl := Option.some.inj h
    rfl
  · obtain ⟨hk, hne⟩ := hf j k h
    rw [orNull, Json.isNull_eq_false_iff.mpr hne]
    exact hk

theorem mapM_of_mapM {f : Json → Option Json} (hf : ∀ j k, f j = some k → f k = some k)
    {js ks : List Json} (h : js.mapM f = some ks) : ks.mapM f = some ks := by
  induction js generalizing ks with
  | nil =>
    obtain rfl := Option.some.inj h
    rfl
  | cons j js ih =>
    rw [List.mapM_cons] at h
    obtain ⟨k, hk, h⟩ := Option.bind_eq_some_iff.mp h
    obtain ⟨rest, hrest, h⟩ := Option.bind_eq_some_iff.mp h
    obtain rfl := Option.some.inj h
    rw [List.mapM_cons, hf j k hk, ih hrest]
    rfl

/-- What is kept for a column is no null, and it is kept as it is the next time. -/
theorem check_of_check {t : ColumnType} {j k : Json} (h : t.check j = some k) :
    t.check k = some k ∧ k ≠ .null := by
  induction t generalizing j k with
  | array inner ih =>
    cases j with
    | array items =>
      obtain ⟨ks, hks, rfl⟩ := Option.map_eq_some_iff.mp h
      have hagain : ks.mapM (orNull inner.check) = some ks :=
        mapM_of_mapM (fun x y hxy => orNull_of_orNull (fun _ _ hc => ih hc) hxy) hks
      refine ⟨?_, nofun⟩
      rw [check, hagain]
      rfl
    | _ => cases h
  | _ => exact ⟨checkScalar_of_checkScalar h, fun hk => checkScalar_ne_null (hk ▸ h)⟩

end ColumnType

/-! ## Fields of a record -/

namespace Payload

section Columns
variable {c : Catalog} {n : Naming} {isPartial : Bool} {payload r : Record} {xs : List Column}

/-- A record holds what the payload gives for each column, and nothing else. -/
theorem get?_of_mapColumns (hnodup : (xs.map Column.name).Nodup)
    (h : mapColumns c n isPartial payload xs = .ok r) :
    (∀ x ∈ xs, mapColumn c n isPartial payload x = .ok (r.get? x.name)) ∧
      ∀ key, key ∉ xs.map Column.name → r.get? key = none := by
  induction xs generalizing r with
  | nil =>
    obtain rfl := Except.ok.inj h
    exact ⟨nofun, fun _ _ => rfl⟩
  | cons x xs ih =>
    obtain ⟨found, hfound, h⟩ := exists_of_bind_ok h
    obtain ⟨rest, hrest, h⟩ := exists_of_bind_ok h
    rw [List.map_cons, List.nodup_cons] at hnodup
    obtain ⟨hget, hnone⟩ := ih hnodup.2 hrest
    cases found with
    | none =>
      obtain rfl := Except.ok.inj h
      refine ⟨?_, ?_⟩
      · intro y hy
        rcases List.mem_cons.mp hy with rfl | hy
        · rw [hfound, hnone y.name hnodup.1]
        · exact hget y hy
      · intro key hkey
        exact hnone key fun hmem => hkey (List.mem_cons_of_mem x.name hmem)
    | some j =>
      obtain rfl := Except.ok.inj h
      have hother : ∀ key, key ≠ x.name → Record.get? ((x.name, j) :: rest) key = rest.get? key := by
        intro key hkey
        have hne : (key == x.name) = false := beq_false_of_ne hkey
        simp only [Record.get?, List.lookup_cons, hne]
      refine ⟨?_, ?_⟩
      · intro y hy
        rcases List.mem_cons.mp hy with rfl | hy
        · rw [hfound]
          simp only [Record.get?, List.lookup_cons, beq_self_eq_true]
        · have hne : y.name ≠ x.name := fun e =>
            hnodup.1 (e ▸ List.mem_map_of_mem hy)
          rw [hget y hy, hother y.name hne]
      · intro key hkey
        rw [List.map_cons, List.mem_cons, not_or] at hkey
        rw [hother key hkey.1, hnone key hkey.2]

/-- What is mapped hangs on what is found for each column. -/
theorem mapColumns_congr {payload' : Record}
    (h : ∀ x ∈ xs, mapColumn c n isPartial payload x = mapColumn c n isPartial payload' x) :
    mapColumns c n isPartial payload xs = mapColumns c n isPartial payload' xs := by
  induction xs with
  | nil => rfl
  | cons x xs ih =>
    have hxs := ih fun y hy => h y (List.mem_cons_of_mem x hy)
    rw [mapColumns, mapColumns, h x List.mem_cons_self, hxs]

/-- Everything that the mapping of a column can find. -/
theorem mapColumn_eq_ok {x : Column} {found : Option Json}
    (h : mapColumn c n isPartial payload x = .ok found) :
    (find? n payload x.name = none ∧ (x.required && !isPartial) = false ∧ found = none) ∨
      (find? n payload x.name = some .null ∧ x.required = false ∧ found = some .null) ∨
      ∃ j k, j ≠ .null ∧ find? n payload x.name = some j ∧ x.type.check j = some k ∧
        found = some k := by
  unfold mapColumn at h
  split at h
  · rename_i hfind
    split at h
    · cases h
    · rename_i hneeded
      exact .inl ⟨hfind, Bool.not_eq_true _ ▸ hneeded, (Except.ok.inj h).symm⟩
  · rename_i hfind
    split at h
    · cases h
    · rename_i hrequired
      exact .inr (.inl ⟨hfind, Bool.not_eq_true _ ▸ hrequired, (Except.ok.inj h).symm⟩)
  · rename_i j hne hfind
    split at h
    · rename_i k hcheck
      exact .inr (.inr ⟨j, k, hne, hfind, hcheck, (Except.ok.inj h).symm⟩)
    · cases h

/-- A column for which the second payload has what the first one gave keeps it. -/
theorem mapColumn_of_mapColumn {x : Column} {found : Option Json}
    (h : mapColumn c n isPartial payload x = .ok found) (hfind : find? n r x.name = found) :
    mapColumn c n isPartial r x = .ok found := by
  unfold mapColumn
  rw [hfind]
  rcases mapColumn_eq_ok h with ⟨-, hneeded, rfl⟩ | ⟨-, hrequired, rfl⟩ | ⟨j, k, -, -, hcheck, rfl⟩
  · exact if_neg (hneeded ▸ Bool.false_ne_true)
  · exact if_neg (hrequired ▸ Bool.false_ne_true)
  · obtain ⟨hagain, hne⟩ := ColumnType.check_of_check hcheck
    split
    · contradiction
    · rename_i heq
      exact absurd (Option.some.inj heq) hne
    · rename_i heq
      obtain rfl := Option.some.inj heq
      rw [hagain]

end Columns

end Payload

/-! ## The second mapping -/

/-- No column has the name of a key under which another column is looked up. -/
def Catalog.KeysApart (c : Catalog) (n : Naming) : Prop :=
  ∀ x ∈ c.columns, ∀ y ∈ c.columns, y.name ∈ n.candidates x.name → y = x

instance (c : Catalog) (n : Naming) : Decidable (c.KeysApart n) :=
  inferInstanceAs (Decidable (∀ x ∈ c.columns, ∀ y ∈ c.columns, _))

namespace Payload

theorem find?_eq_or (n : Naming) (r : Record) (column : String) :
    find? n r column = (r.get? (n.payloadKey column)).or (r.get? (n.alternateKey column)) := by
  rw [find?, Naming.candidates, List.findSome?_cons, List.findSome?_cons, List.findSome?_nil]
  cases r.get? (n.payloadKey column) <;> cases r.get? (n.alternateKey column) <;> rfl

/-- A column is found under its name if there is nothing under another spelling of it. -/
theorem find?_eq_get? {n : Naming} {r : Record} {column : String}
    (h : ∀ key ∈ n.candidates column, key ≠ column → r.get? key = none) :
    find? n r column = r.get? column := by
  have hcamel : Text.camel column ∈ n.candidates column := by
    cases n <;> simp [Naming.candidates, Naming.payloadKey, Naming.alternateKey]
  rw [find?_eq_or]
  by_cases heq : Text.camel column = column
  · cases n <;> simp [Naming.payloadKey, Naming.alternateKey, heq]
  · have hnone := h _ hcamel heq
    cases n <;> simp [Naming.payloadKey, Naming.alternateKey, hnone]

/-- **Mapping a record again changes nothing.** The names of its columns are keys of a payload, and
every value that was kept is kept as it is. -/
theorem map_of_map {c : Catalog} {n : Naming} (hkeys : c.KeysApart n) {isPartial : Bool}
    {payload : Json} {r : Record} (h : map c n isPartial payload = .ok r) :
    map c n isPartial (.object r) = .ok r := by
  cases payload with
  | object fields =>
    have hmap := h
    obtain ⟨r', hr', h⟩ := exists_of_bind_ok h
    obtain rfl : r' = r := by
      split at h
      · cases h
      · exact Except.ok.inj h
    obtain ⟨hget, hnone⟩ := get?_of_mapColumns c.nodup hr'
    have hfind : ∀ x ∈ c.columns, find? n r' x.name = r'.get? x.name := by
      intro x hx
      refine find?_eq_get? fun key hkey hne => hnone key fun hmem => hne ?_
      obtain ⟨y, hy, rfl⟩ := List.mem_map.mp hmem
      rw [hkeys x hx y hy hkey]
    have hcolumn : ∀ x ∈ c.columns,
        mapColumn c n isPartial r' x = mapColumn c n isPartial fields x := by
      intro x hx
      rw [hget x hx]
      exact mapColumn_of_mapColumn (hget x hx) (hfind x hx)
    rw [← hmap, map, map, mapColumns_congr hcolumn]
  | _ => cases h

theorem map_of_map_nested :
    let c := Catalog.ofList
      [⟨"age", .integer, false⟩, ⟨"home", .point, false⟩, ⟨"first_name", .string, true⟩,
       ⟨"all_settings", .array (.array .jsonb), false⟩, ⟨"born_on", .date, false⟩]
    let x := Json.number (.int 0)
    let y := Json.number (.int (-1))
    let settings := Json.array [.null, .array [.object [("a", .array [.bool true])], .null]]
    let payload : Record := [("firstName", .string "Ada"), ("age", .number (.double (.ofInt 2))),
      ("home", .object [("z", .null), ("y", y), ("x", x)]), ("allSettings", settings),
      ("born_on", .null), ("other", .bool false)]
    let r : Record := [("age", .number (.int 2)), ("home", .object [("x", x), ("y", y)]),
      ("first_name", .string "Ada"),
      ("all_settings", .array [.null, .array [.string "\x7b\"a\":[true]\x7d", .null]]),
      ("born_on", .null)]
    c.KeysApart .camel ∧ map c .camel false (.object payload) = .ok r ∧
      map c .camel false (.object r) = .ok r := by
  intro c x y settings payload r
  have hkeys : c.KeysApart .camel := by decide +kernel
  have hint : (Double.ofInt 2).isIntegral = true := by decide +kernel
  have hclamp : clampSigned (Double.ofInt 2).truncate = 2 := by decide +kernel
  have hfinite : (ColumnType.isFiniteNumber x && ColumnType.isFiniteNumber y) = true := by
    decide +kernel
  have hage : mapColumn c .camel false payload ⟨"age", .integer, false⟩ =
      .ok (some (.number (.int 2))) := by
    have hcheck : ColumnType.checkInteger (.double (.ofInt 2)) = some (.number (.int 2)) := by
      rw [ColumnType.checkInteger, if_pos hint, hclamp]
    have hfind : find? .camel payload "age" = some (.number (.double (.ofInt 2))) := rfl
    rw [mapColumn, hfind]
    dsimp only [ColumnType.check, ColumnType.checkScalar]
    rw [hcheck]
  have hhome : mapColumn c .camel false payload ⟨"home", .point, false⟩ =
      .ok (some (.object [("x", x), ("y", y)])) := by
    have hfind : find? .camel payload "home" =
        some (.object [("z", .null), ("y", y), ("x", x)]) := rfl
    rw [mapColumn, hfind]
    dsimp only [ColumnType.check, ColumnType.checkScalar]
    rw [ColumnType.checkPoint_of_finite rfl rfl hfinite]
  have hothers : mapColumns c .camel false payload
      [⟨"first_name", .string, true⟩, ⟨"all_settings", .array (.array .jsonb), false⟩,
       ⟨"born_on", .date, false⟩] = .ok (r.drop 2) := rfl
  have hcolumns : c.columns =
      [⟨"age", .integer, false⟩, ⟨"home", .point, false⟩, ⟨"first_name", .string, true⟩,
       ⟨"all_settings", .array (.array .jsonb), false⟩, ⟨"born_on", .date, false⟩] := rfl
  have h : map c .camel false (.object payload) = .ok r := by
    rw [map, hcolumns, mapColumns, mapColumns, hage, hhome, hothers]
    rfl
  exact ⟨hkeys, h, map_of_map hkeys h⟩

end Payload
end SingleTable
