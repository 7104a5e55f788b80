import SingleTable.Proofs.Payload.Schema
import SingleTable.Proofs.Query.Faults
import SingleTable.Proofs.Sql.Batch

/-! # Faults of payloads

* `Payload.IsAccepted`, `Payload.Fault`: documents that are mapped, and why another one is not.
* `Payload.Batch`: the payloads of an insertion; `IsInsertable`, `InsertFault`: data that can be
  inserted, and why other data cannot.
* `Payload.map_eq_error_iff`, `InsertFault.eq_error`: the reason that is told.
-/

namespace SingleTable.Payload

/-! ## Reasons -/

section Reasons
variable (c : Catalog) (n : Naming)

/-- An object that no column has a reason to refuse; in partial mode it has a value for some. -/
inductive IsAccepted (isPartial : Bool) : Json → Prop
  | object {payload : Record} (h : ∀ x ∈ c.columns, ∀ e, ¬ Offends c n isPartial payload x e)
    (hfind : isPartial = true → ∃ x ∈ c.columns, find? n payload x.name ≠ none) :
    IsAccepted isPartial (.object payload)

inductive Fault (isPartial : Bool) : Json → Refusal → Prop
  | notObject {j : Json} (h : ∀ payload, j ≠ .object payload) :
    Fault isPartial j (.payloadNotObject c)
  | object {payload : Record} {e : Refusal} (h : IsRefused c n isPartial payload e) :
    Fault isPartial (.object payload) e

/-- The payloads in the data of an insertion: those of an array, or the document alone. -/
inductive Batch : Json → List Json → Prop
  | many (items : List Json) : Batch (.array items) items
  | one {j : Json} (h : ∀ items, j ≠ .array items) : Batch j [j]

/-- Payloads of which one at least has a value for some column. -/
inductive IsInsertable : Json → Prop
  | batch {j : Json} {items : List Json} {payload : Record} {x : Column} (hbatch : Batch j items)
    (hitems : ∀ i ∈ items, IsAccepted c n false i) (hpayload : .object payload ∈ items)
    (hx : x ∈ c.columns) (hfind : find? n payload x.name ≠ none) : IsInsertable j

/-- No payloads at all, a first one at fault, or payloads without a value for any column. -/
inductive InsertFault : Json → Refusal → Prop
  | empty : InsertFault (.array []) (.payloadNotList c)
  | payload {j i : Json} {items before after : List Json} {e : Refusal} (hbatch : Batch j items)
    (hitems : items = before ++ i :: after) (hbefore : ∀ b ∈ before, IsAccepted c n false b)
    (h : Fault c n false i e) : InsertFault j e
  | nothing {j : Json} {items : List Json} (hbatch : Batch j items) (hne : items ≠ [])
    (hitems : ∀ i ∈ items, IsAccepted c n false i)
    (hfind : ∀ payload, .object payload ∈ items → ∀ x ∈ c.columns,
      find? n payload x.name = none) : InsertFault j .nothingToInsert

end Reasons

section Mapping
variable {c : Catalog} {n : Naming} {isPartial : Bool} {payload r : Record} {j : Json} {e : Refusal}

/-! ## One payload -/

theorem IsMapped.find?_eq_none_iff (h : IsMapped c n isPartial payload r) {x : Column}
    (hx : x ∈ c.columns) : find? n payload x.name = none ↔ r.get? x.name = none := by
  have hkeeps := h.keeps x hx
  constructor
  · intro hfind
    rw [hfind] at hkeeps
    cases hr : r.get? x.name with
    | none => rfl
    | some k =>
      rw [hr] at hkeeps
      cases hkeeps
  · intro hr
    rw [hr] at hkeeps
    cases hfind : find? n payload x.name with
    | none => rfl
    | some k =>
      rw [hfind] at hkeeps
      cases hkeeps

/-- A record has a value for some column unless nothing was found for any. -/
theorem IsMapped.exists_find? (h : IsMapped c n isPartial payload r) (hne : r ≠ []) :
    ∃ x ∈ c.columns, find? n payload x.name ≠ none := by
  obtain ⟨field, rest, rfl⟩ := List.exists_cons_of_ne_nil hne
  have hkey : field.1 ∈ c.names := h.columns.subset List.mem_cons_self
  obtain ⟨x, hx, hname⟩ := List.mem_map.mp hkey
  refine ⟨x, hx, fun hfind => ?_⟩
  have hget := (h.find?_eq_none_iff hx).mp hfind
  rw [hname, Record.get?, List.lookup_cons_self] at hget
  cases hget

theorem isAccepted_of_map (h : map c n isPartial j = .ok r) : IsAccepted c n isPartial j := by
  cases j with
  | object payload =>
    have houtcome := outcome_of_map c n isPartial payload
    rw [h] at houtcome
    exact .object houtcome.2 fun hpartial =>
      houtcome.1.exists_find? (houtcome.1.ne_nil hpartial)
  | _ => cases h

theorem fault_of_map (h : map c n isPartial j = .error e) : Fault c n isPartial j e := by
  cases j with
  | object payload =>
    have houtcome := outcome_of_map c n isPartial payload
    rw [h] at houtcome
    exact .object houtcome
  | _ =>
    obtain rfl := Except.error.inj h
    exact .notObject fun _ => Json.noConfusion

theorem not_isRefused (h : IsAccepted c n isPartial (.object payload)) :
    ¬ IsRefused c n isPartial payload e := by
  intro hrefused
  cases h with
  | object hoffends hfind =>
    cases hrefused with
    | column hcolumns _ hx =>
      exact hoffends _ (hcolumns ▸ List.mem_append_right _ List.mem_cons_self) _ hx
    | empty _ hnone hpartial =>
      obtain ⟨x, hx, hfind⟩ := hfind hpartial
      exact hfind (hnone x hx)

theorem isAccepted_iff : IsAccepted c n isPartial j ↔ ∃ r, map c n isPartial j = .ok r := by
  refine ⟨fun h => ?_, fun ⟨r, hr⟩ => isAccepted_of_map hr⟩
  cases hmap : map c n isPartial j with
  | ok r => exact ⟨r, rfl⟩
  | error e =>
    cases fault_of_map hmap with
    | notObject hobject =>
      cases h
      exact absurd rfl (hobject _)
    | object hrefused => exact absurd hrefused (not_isRefused h)

theorem mapColumns_eq_error {before after : List Column} {x : Column}
    (hbefore : ∀ y ∈ before, ∀ e, ¬ Offends c n isPartial payload y e)
    (h : Offends c n isPartial payload x e) :
    mapColumns c n isPartial payload (before ++ x :: after) = .error e := by
  induction before with
  | nil =>
    rw [List.nil_append, mapColumns, offends_iff.mp h]
    rfl
  | cons y before ih =>
    obtain ⟨hy, hrest⟩ := List.forall_mem_cons.mp hbefore
    rw [List.cons_append, mapColumns, ih hrest]
    cases hcolumn : mapColumn c n isPartial payload y with
    | error e' => exact absurd (offends_iff.mpr hcolumn) (hy e')
    | ok found => rfl

theorem mapColumns_eq_nil {xs : List Column} (hpartial : isPartial = true)
    (h : ∀ x ∈ xs, find? n payload x.name = none) :
    mapColumns c n isPartial payload xs = .ok [] := by
  induction xs with
  | nil => rfl
  | cons x xs ih =>
    obtain ⟨hx, hrest⟩ := List.forall_mem_cons.mp h
    rw [mapColumns, ih hrest, mapColumn, hx, hpartial, Bool.not_true, Bool.and_false]
    rfl

/-- A payload is refused for the reason of its first column at fault. -/
theorem map_eq_error_iff : map c n isPartial j = .error e ↔ Fault c n isPartial j e := by
  refine ⟨fault_of_map, fun h => ?_⟩
  cases h with
  | notObject h =>
    cases j with
    | object payload => exact absurd rfl (h payload)
    | _ => rfl
  | object h =>
    cases h with
    | column hcolumns hbefore hx =>
      rw [map, hcolumns, mapColumns_eq_error hbefore hx]
      rfl
    | empty _ hfind hpartial =>
      rw [map, mapColumns_eq_nil hpartial hfind, hpartial]
      rfl

end Mapping

/-! ## Insertions -/

section Insertions
variable {c : Catalog} {n : Naming} {j : Json} {items : List Json} {rows : List Record} {e : Refusal}

/-- The records of an insertion. -/
def mapData (c : Catalog) (n : Naming) (data : Json) : Except Refusal (List Record) :=
  match data with
  | .array _ => mapAll c n false data
  | _ => (map c n false data).map ([·])

theorem Batch.mapData_eq (h : Batch j items) (hne : items ≠ []) :
    mapData c n j = items.mapM (map c n false) := by
  cases h with
  | many => exact mapAll_eq_mapM hne
  | one h =>
    rw [List.mapM_cons, List.mapM_nil]
    cases j with
    | array items => exact absurd rfl (h items)
    | _ => rfl

theorem exists_batch (j : Json) : ∃ items, Batch j items := by
  cases j with
  | array items => exact ⟨items, .many items⟩
  | _ => exact ⟨_, .one nofun⟩

theorem Batch.exists_mapData (h : Batch j items) (hne : items ≠ [])
    (hitems : ∀ i ∈ items, IsAccepted c n false i) :
    ∃ rows, mapData c n j = .ok rows ∧
      List.Forall₂ (fun i r => map c n false i = .ok r) items rows := by
  rw [h.mapData_eq hne]
  obtain ⟨rows, hrows⟩ := Query.exists_mapM_iff.mpr fun i hi => isAccepted_iff.mp (hitems i hi)
  exact ⟨rows, hrows, mapM_eq_ok_iff.mp hrows⟩

/-- No column is supplied when nothing was found for any. -/
theorem suppliedColumns_eq_nil_iff
    (h : List.Forall₂ (fun i r => map c n false i = .ok r) items rows) :
    Config.suppliedColumns c rows = [] ↔
      ∀ payload, .object payload ∈ items → ∀ x ∈ c.columns, find? n payload x.name = none := by
  have hmapped : ∀ {payload r}, map c n false (.object payload) = .ok r →
      IsMapped c n false payload r := by
    intro payload r hr
    have houtcome := outcome_of_map c n false payload
    rw [hr] at houtcome
    exact houtcome.1
  rw [List.eq_nil_iff_forall_not_mem]
  constructor
  · intro hnone payload hpayload x hx
    obtain ⟨r, hr, hmap⟩ := exists_of_mem_right h.flip hpayload
    rw [(hmapped hmap).find?_eq_none_iff hx, Option.eq_none_iff_forall_ne_some]
    intro k hk
    exact hnone x.name (Config.mem_suppliedColumns.mpr ⟨List.mem_map_of_mem hx, r, hr, k, hk⟩)
  · intro hnone name hname
    obtain ⟨hmem, r, hr, k, hk⟩ := Config.mem_suppliedColumns.mp hname
    obtain ⟨x, hx, rfl⟩ := List.mem_map.mp hmem
    obtain ⟨i, hi, hmap⟩ := exists_of_mem_right h hr
    cases i with
    | object payload =>
      have hget := ((hmapped hmap).find?_eq_none_iff hx).mp (hnone payload hi x hx)
      rw [hk] at hget
      cases hget
    | _ => cases hmap

variable (config : Config) (returning : List String)

theorem IsInsertable.exists_command (h : IsInsertable c n j) :
    ∃ command, (mapData c n j >>= fun rows => Statement.insert config c rows returning) =
      .ok command := by
  obtain ⟨hbatch, hitems, hpayload, hx, hfind⟩ := h
  obtain ⟨rows, hrows, hrel⟩ := hbatch.exists_mapData (List.ne_nil_of_mem hpayload) hitems
  rw [hrows]
  change ∃ command, Statement.insert config c rows returning = .ok command
  unfold Statement.insert
  split
  · rename_i hnil
    exact absurd ((suppliedColumns_eq_nil_iff hrel).mp hnil _ hpayload _ hx) hfind
  · exact ⟨_, rfl⟩

theorem InsertFault.eq_error (h : InsertFault c n j e) :
    (mapData c n j >>= fun rows => Statement.insert config c rows returning) = .error e := by
  cases h with
  | empty => rfl
  | @payload j i items before after e hbatch hitems hbefore h =>
    have hne : items ≠ [] := hitems ▸ List.append_ne_nil_of_right_ne_nil _ (List.cons_ne_nil _ _)
    rw [hbatch.mapData_eq hne, mapM_eq_error_iff.mpr ⟨before, i, after, hitems,
      fun b hb => isAccepted_iff.mp (hbefore b hb), map_eq_error_iff.mpr h⟩]
    rfl
  | nothing hbatch hne hitems hfind =>
    obtain ⟨rows, hrows, hrel⟩ := hbatch.exists_mapData hne hitems
    rw [hrows]
    change Statement.insert config c rows returning = _
    rw [Statement.insert, (suppliedColumns_eq_nil_iff hrel).mpr hfind]

/-- Data can be inserted, or has a first fault. -/
theorem isInsertable_or_fault (c : Catalog) (n : Naming) (j : Json) :
    IsInsertable c n j ∨ ∃ e, InsertFault c n j e := by
  obtain ⟨items, hbatch⟩ := exists_batch j
  by_cases hne : items = []
  · obtain rfl : j = .array [] := by
      rw [hne] at hbatch
      cases hbatch
      rfl
    exact .inr ⟨_, .empty⟩
  · cases hmap : items.mapM (map c n false) with
    | error e =>
      obtain ⟨before, i, after, hitems, hbefore, hi⟩ := mapM_eq_error_iff.mp hmap
      exact .inr ⟨e, .payload hbatch hitems (fun b hb => isAccepted_iff.mpr (hbefore b hb))
        (fault_of_map hi)⟩
    | ok rows =>
      have hitems : ∀ i ∈ items, IsAccepted c n false i := fun i hi =>
        isAccepted_iff.mpr (Query.exists_mapM_iff.mp ⟨rows, hmap⟩ i hi)
      by_cases hfind : ∀ payload, .object payload ∈ items → ∀ x ∈ c.columns,
          find? n payload x.name = none
      · exact .inr ⟨_, .nothing hbatch hne hitems hfind⟩
      · simp only [not_forall] at hfind
        obtain ⟨payload, hpayload, x, hx, hfind⟩ := hfind
        exact .inl (.batch hbatch hitems hpayload hx hfind)

end Insertions

end SingleTable.Payload
