import SingleTable.Proofs.Payload.Shape
import SingleTable.Proofs.Query.Normal

/-! # What a catalog demands of a payload

A payload is mapped when none of the columns has a reason to refuse it. Otherwise it is refused for
the reason of the first column that has one.

* `Column.Keeps`: what a record holds for a column, by what the payload has for it.
* `Payload.IsMapped`: the record of a payload.
* `Payload.Offends`, `Payload.IsRefused`: the reasons of a column, and of a catalog.
* `Payload.Agree`: payloads that differ only in fields which no column is looked for under.
* `Payload.map_exact`: the outcome of a payload, and of a batch.
-/

namespace SingleTable

/-- Null is kept in a column that is not required, and any other value as its type has it. -/
inductive Column.Keeps (x : Column) : Option Json → Option Json → Prop
  | missing : x.Keeps none none
  | null (h : x.required = false) : x.Keeps (some .null) (some .null)
  | value {j k : Json} (hj : j ≠ .null) (h : x.type.check j = some k) : x.Keeps (some j) (some k)

theorem Column.Keeps.ne_null {x : Column} {found kept : Option Json} (h : x.Keeps found kept)
    (hrequired : x.required = true) : kept ≠ some .null := by
  cases h with
  | missing => nofun
  | null h =>
    rw [hrequired] at h
    cases h
  | value _ h => exact fun hk => (ColumnType.check_of_check h).2 (Option.some.inj hk)

namespace Payload

section Columns
variable (c : Catalog) (n : Naming) (isPartial : Bool) (payload : Record)

/-- The record has columns of the catalog, in its order. -/
structure IsMapped (r : Record) : Prop where
  columns : r.keys.Sublist c.names
  keeps : ∀ x ∈ c.columns, x.Keeps (find? n payload x.name) (r.get? x.name)
  ne_null : ∀ x ∈ c.columns, x.required = true → r.get? x.name ≠ some .null
  complete : isPartial = false → ∀ x ∈ c.columns, x.required = true → r.contains x.name = true
  ne_nil : isPartial = true → r ≠ []

/-- A column's reason to refuse the payload. -/
inductive Offends (x : Column) : Refusal → Prop
  | missing (hfind : find? n payload x.name = none) (hrequired : x.required = true)
      (hfull : isPartial = false) : Offends x (.fieldMissing (n.payloadKey x.name) c)
  | null (hfind : find? n payload x.name = some .null) (hrequired : x.required = true) :
      Offends x (.fieldMissing (n.payloadKey x.name) c)
  | mistyped {j : Json} (hfind : find? n payload x.name = some j) (hj : j ≠ .null)
      (hcheck : x.type.check j = none) : Offends x (.wrongType x j c)

/-- The reason of the first column that has one; or, in partial mode, that nothing is found for any
column. -/
inductive IsRefused : Refusal → Prop
  | column {before after : List Column} {x : Column} {e : Refusal}
      (hcolumns : c.columns = before ++ x :: after)
      (hbefore : ∀ y ∈ before, ∀ e, ¬ Offends c n isPartial payload y e)
      (h : Offends c n isPartial payload x e) : IsRefused e
  | empty (hcolumns : ∀ x ∈ c.columns, ∀ e, ¬ Offends c n isPartial payload x e)
      (hfind : ∀ x ∈ c.columns, find? n payload x.name = none) (hpartial : isPartial = true) :
      IsRefused (.noKnownColumn c)

end Columns

section Columns
variable {c : Catalog} {n : Naming} {isPartial : Bool} {payload r : Record} {x : Column}
  {xs : List Column} {e : Refusal}

theorem IsRefused.catalog (h : IsRefused c n isPartial payload e) : e.catalog? = some c := by
  cases h with
  | column _ _ h => cases h <;> rfl
  | empty => rfl

/-! ## One column -/

theorem offends_iff : Offends c n isPartial payload x e ↔
    mapColumn c n isPartial payload x = .error e := by
  unfold mapColumn
  constructor
  · intro h
    cases h with
    | missing hfind hrequired hfull => rw [hfind, hrequired, hfull]; rfl
    | null hfind hrequired => rw [hfind, hrequired]; rfl
    | mistyped hfind hj hcheck =>
      rw [hfind]
      split
      · contradiction
      · rename_i heq
        exact absurd (Option.some.inj heq) hj
      · rename_i heq
        obtain rfl := Option.some.inj heq
        rw [hcheck]
  · intro h
    split at h
    · rename_i hfind
      split at h
      · rename_i hneeded
        obtain rfl := Except.error.inj h
        rw [Bool.and_eq_true, Bool.not_eq_true'] at hneeded
        exact .missing hfind hneeded.1 hneeded.2
      · cases h
    · rename_i hfind
      split at h
      · rename_i hrequired
        obtain rfl := Except.error.inj h
        exact .null hfind hrequired
      · cases h
    · rename_i j hj hfind
      split at h
      · cases h
      · rename_i hcheck
        obtain rfl := Except.error.inj h
        exact .mistyped hfind hj hcheck

theorem not_offends {found : Option Json} (h : mapColumn c n isPartial payload x = .ok found) :
    ∀ e, ¬ Offends c n isPartial payload x e := by
  intro e he
  rw [offends_iff.mp he] at h
  cases h

theorem keeps_of_mapColumn {found : Option Json}
    (h : mapColumn c n isPartial payload x = .ok found) :
    x.Keeps (find? n payload x.name) found := by
  rcases mapColumn_eq_ok h with
    ⟨hfind, -, rfl⟩ | ⟨hfind, hrequired, rfl⟩ | ⟨j, k, hj, hfind, hcheck, rfl⟩
  · rw [hfind]
    exact .missing
  · rw [hfind]
    exact .null hrequired
  · rw [hfind]
    exact .value hj hcheck

theorem ne_none_of_mapColumn {found : Option Json} (hfull : isPartial = false)
    (hrequired : x.required = true) (h : mapColumn c n isPartial payload x = .ok found) :
    found ≠ none := by
  rintro rfl
  exact not_offends h _ (.missing (find?_eq_none_of_mapColumn h) hrequired hfull)

/-! ## All columns -/

theorem keys_of_mapColumns (h : mapColumns c n isPartial payload xs = .ok r) :
    r.keys.Sublist (xs.map Column.name) := by
  induction xs generalizing r with
  | nil =>
    obtain rfl := Except.ok.inj h
    exact List.Sublist.refl _
  | cons x xs ih =>
    obtain ⟨found, -, h⟩ := exists_of_bind_ok h
    obtain ⟨rest, hrest, h⟩ := exists_of_bind_ok h
    cases found with
    | none =>
      obtain rfl := Except.ok.inj h
      exact (ih hrest).cons x.name
    | some j =>
      obtain rfl := Except.ok.inj h
      exact (ih hrest).cons_cons x.name

theorem exists_of_mapColumns_error (h : mapColumns c n isPartial payload xs = .error e) :
    ∃ before x after, xs = before ++ x :: after ∧
      (∀ y ∈ before, ∀ e, ¬ Offends c n isPartial payload y e) ∧
      Offends c n isPartial payload x e := by
  induction xs with
  | nil => cases h
  | cons x xs ih =>
    cases hx : mapColumn c n isPartial payload x with
    | error e' =>
      rw [mapColumns, hx] at h
      obtain rfl := Except.error.inj h
      exact ⟨[], x, xs, rfl, fun y hy => absurd hy List.not_mem_nil, offends_iff.mpr hx⟩
    | ok found =>
      cases hxs : mapColumns c n isPartial payload xs with
      | ok rest =>
        rw [mapColumns, hx, hxs] at h
        cases found <;> cases h
      | error e' =>
        rw [mapColumns, hx, hxs] at h
        obtain rfl := Except.error.inj h
        obtain ⟨before, y, after, rfl, hbefore, hy⟩ := ih hxs
        exact ⟨x :: before, y, after, rfl, List.forall_mem_cons.mpr ⟨not_offends hx, hbefore⟩, hy⟩

theorem isMapped_of_mapColumns (h : mapColumns c n isPartial payload c.columns = .ok r)
    (hne : isPartial = true → r ≠ []) :
    IsMapped c n isPartial payload r ∧
      ∀ x ∈ c.columns, ∀ e, ¬ Offends c n isPartial payload x e := by
  have hcolumn := (get?_of_mapColumns c.nodup h).1
  refine ⟨⟨keys_of_mapColumns h, fun x hx => keeps_of_mapColumn (hcolumn x hx),
    fun x hx => (keeps_of_mapColumn (hcolumn x hx)).ne_null, fun hfull x hx hrequired => ?_, hne⟩,
    fun x hx => not_offends (hcolumn x hx)⟩
  exact Option.isSome_iff_ne_none.mpr (ne_none_of_mapColumn hfull hrequired (hcolumn x hx))

theorem isRefused_of_mapColumns_nil (h : mapColumns c n isPartial payload c.columns = .ok [])
    (hpartial : isPartial = true) : IsRefused c n isPartial payload (.noKnownColumn c) := by
  have hcolumn := (get?_of_mapColumns c.nodup h).1
  exact .empty (fun x hx => not_offends (hcolumn x hx))
    (fun x hx => find?_eq_none_of_mapColumn (hcolumn x hx)) hpartial

theorem outcome_of_map (c : Catalog) (n : Naming) (isPartial : Bool) (payload : Record) :
    match map c n isPartial (.object payload) with
    | .ok r => IsMapped c n isPartial payload r ∧
        ∀ x ∈ c.columns, ∀ e, ¬ Offends c n isPartial payload x e
    | .error e => IsRefused c n isPartial payload e := by
  rw [map]
  cases h : mapColumns c n isPartial payload c.columns with
  | error e =>
    obtain ⟨before, x, after, hcolumns, hbefore, hx⟩ := exists_of_mapColumns_error h
    exact .column hcolumns hbefore hx
  | ok r =>
    cases isPartial with
    | false => exact isMapped_of_mapColumns h fun hpartial => absurd hpartial Bool.false_ne_true
    | true =>
      cases r with
      | nil => exact isRefused_of_mapColumns_nil h rfl
      | cons field r => exact isMapped_of_mapColumns h fun _ => List.cons_ne_nil field r

/-! ## Fields that no column asks for -/

/-- The payloads have the same under every key that a column is looked for under. -/
def Agree (c : Catalog) (n : Naming) (payload payload' : Record) : Prop :=
  ∀ x ∈ c.columns, ∀ key ∈ n.candidates x.name, payload.get? key = payload'.get? key

theorem findSome?_congr {α β : Type} {f g : α → Option β} {xs : List α}
    (h : ∀ x ∈ xs, f x = g x) : xs.findSome? f = xs.findSome? g := by
  induction xs with
  | nil => rfl
  | cons x xs ih =>
    have hxs := ih fun y hy => h y (List.mem_cons_of_mem x hy)
    rw [List.findSome?_cons, List.findSome?_cons, h x List.mem_cons_self, hxs]

/-- What is mapped hangs on what is found for the columns of the catalog. -/
theorem map_eq_of_find?_eq {payload' : Record}
    (h : ∀ x ∈ c.columns, find? n payload x.name = find? n payload' x.name) (isPartial : Bool) :
    map c n isPartial (.object payload) = map c n isPartial (.object payload') := by
  have hcolumn : ∀ x ∈ c.columns,
      mapColumn c n isPartial payload x = mapColumn c n isPartial payload' x := by
    intro x hx
    unfold mapColumn
    rw [h x hx]
  rw [map, map, mapColumns_congr hcolumn]

theorem Agree.map_eq {payload' : Record} (h : Agree c n payload payload') (isPartial : Bool) :
    map c n isPartial (.object payload) = map c n isPartial (.object payload') :=
  map_eq_of_find?_eq (fun x hx => findSome?_congr (h x hx)) isPartial

/-- Any field may be left out that no column is looked for under. -/
theorem agree_filter {p : String → Bool}
    (h : ∀ x ∈ c.columns, ∀ key ∈ n.candidates x.name, p key = true) (payload : Record) :
    Agree c n payload (payload.filter fun field => p field.1) := by
  intro x hx key hkey
  have hp := h x hx key hkey
  induction payload with
  | nil => rfl
  | cons field payload ih =>
    obtain ⟨k, j⟩ := field
    rw [Record.get?, Record.get?] at ih ⊢
    by_cases hk : key = k
    · simp [hk, hk ▸ hp]
    · have hne : (key == k) = false := beq_false_of_ne hk
      cases hpk : p k <;> simp [List.lookup_cons, hne, hpk, ih]

end Columns

/-! ## Batches -/

theorem mapAll_eq_mapM {c : Catalog} {n : Naming} {isPartial : Bool} {items : List Json}
    (h : items ≠ []) : mapAll c n isPartial (.array items) = items.mapM (map c n isPartial) := by
  cases items with
  | nil => exact absurd rfl h
  | cons j items => rfl

/-- **A catalog's demands are met, or the first column at fault is told.** A payload is mapped to a
record that has everything its catalog demands, just if no column has a reason to refuse it; in
partial mode something has to be found as well. Only the fields under the keys of columns matter. A
batch is mapped payload by payload, or refused for the reason of its first payload at fault. -/
theorem map_exact (c : Catalog) (n : Naming) (isPartial : Bool) :
    (∀ payload : Record,
      (match map c n isPartial (.object payload) with
        | .ok r => IsMapped c n isPartial payload r ∧
            ∀ x ∈ c.columns, ∀ e, ¬ Offends c n isPartial payload x e
        | .error e => IsRefused c n isPartial payload e ∧ e.catalog? = some c) ∧
      ∀ payload', Agree c n payload payload' →
        map c n isPartial (.object payload') = map c n isPartial (.object payload)) ∧
    ∀ items : List Json, items ≠ [] →
      (∀ rs, mapAll c n isPartial (.array items) = .ok rs ↔
        List.Forall₂ (fun j r => map c n isPartial j = .ok r) items rs) ∧
      ∀ e, mapAll c n isPartial (.array items) = .error e ↔
        ∃ before j after, items = before ++ j :: after ∧
          (∀ i ∈ before, ∃ r, map c n isPartial i = .ok r) ∧ map c n isPartial j = .error e := by
  refine ⟨fun payload => ⟨?_, fun payload' h => (h.map_eq isPartial).symm⟩, fun items hne => ?_⟩
  · have houtcome := outcome_of_map c n isPartial payload
    cases h : map c n isPartial (.object payload) with
    | ok r =>
      rw [h] at houtcome
      exact houtcome
    | error e =>
      rw [h] at houtcome
      exact ⟨houtcome, houtcome.catalog⟩
  · rw [mapAll_eq_mapM hne]
    exact ⟨fun rs => mapM_eq_ok_iff, fun e => mapM_eq_error_iff⟩

/-- The second column at fault is not told, nor is the unknown field; the second payload is. -/
theorem map_exact_people :
    let c := Catalog.ofList
      [⟨"id", .serial, false⟩, ⟨"first_name", .string, true⟩, ⟨"age", .integer, true⟩]
    let good : Record :=
      [("age", .number (.int 3)), ("other", .bool true), ("first_name", .string "A")]
    let bad : Record := [("age", .string "3"), ("id", .null), ("firstName", .null)]
    let r : Record := [("first_name", .string "A"), ("age", .number (.int 3))]
    let e := Refusal.fieldMissing "firstName" c
    IsMapped c .camel false good r ∧ IsRefused c .camel false bad e ∧
      Agree c .camel good (good.filter (·.1 ≠ "other")) ∧
      map c .camel false (.object (good.filter (·.1 ≠ "other"))) = .ok r ∧
      mapAll c .camel false (.array [.object good, .object bad, .null]) = .error e := by
  intro c good bad r e
  have hgood : map c .camel false (.object good) = .ok r := rfl
  have hbad : map c .camel false (.object bad) = .error e := rfl
  obtain ⟨hpayload, hbatch⟩ := map_exact c .camel false
  have hmapped := (hpayload good).1
  rw [hgood] at hmapped
  have hrefused := (hpayload bad).1
  rw [hbad] at hrefused
  have hagree : Agree c .camel good (good.filter (·.1 ≠ "other")) := by
    have hkeys : ∀ x ∈ c.columns, ∀ key ∈ Naming.camel.candidates x.name, key ≠ "other" := by
      dsimp only [c]
      decide +kernel
    exact agree_filter (fun x hx key hkey => decide_eq_true (hkeys x hx key hkey)) good
  have hfiltered := (hpayload good).2 _ hagree
  rw [hgood] at hfiltered
  refine ⟨hmapped.1, hrefused.1, hagree, hfiltered, ?_⟩
  exact ((hbatch _ (List.cons_ne_nil _ _)).2 e).mpr ⟨[.object good], .object bad, [.null], rfl,
    fun i hi => ⟨r, List.mem_singleton.mp hi ▸ hgood⟩, hbad⟩

end Payload

end SingleTable
