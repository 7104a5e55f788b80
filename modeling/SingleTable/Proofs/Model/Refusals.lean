import SingleTable.Proofs.Model.Calls

/-! # Refused calls

Which calls are refused, and why, without reading their arguments.

* `Model.IsTarget`, `Model.TargetFault`: what an update may aim at.
* `Call.IsAccepted`, `Call.IsRefused`: calls that ask the database, and the reason of any other.
* `Call.isAccepted_iff`, `Call.isRefused_iff`: a call has a command, or it is refused for this
  reason.
-/

namespace SingleTable
open Sql

/-! ## Targets -/

/-- Fields that ask for nothing: there are none, or there is a list without entries. -/
def Filter.IsBlank (fields : Record) : Prop :=
  fields = [] ∨ fields.get? "where" = some (.array [])

theorem Filter.Keeps.eq_nil_iff {fields : Record} {ns : List Node}
    (h : Keeps (.object fields) ns) : ns = [] ↔ IsBlank fields := by
  cases h with
  | flat hwhere h =>
    constructor
    · rintro rfl
      exact .inl (List.forall₂_nil_right_iff.mp h)
    · rintro (rfl | hlist)
      · exact List.forall₂_nil_left_iff.mp h
      · rw [hwhere] at hlist
        cases hlist
  | structured hwhere hlist h =>
    constructor
    · rintro rfl
      obtain rfl := List.forall₂_nil_right_iff.mp h
      cases hlist
      exact .inr hwhere
    · rintro (rfl | hempty)
      · cases hwhere
      · obtain rfl := Option.some.inj (hwhere.symm.trans hempty)
        cases hlist
        exact List.forall₂_nil_left_iff.mp h

namespace Model

/-- A primary key, or a filter that asks for something. -/
inductive IsTarget (m : Model) : Json → Prop
  | filter {fields : Record} (h : Query.IsAccepted m.config.columns (.object fields))
    (hblank : ¬ Filter.IsBlank fields) : IsTarget m (.object fields)
  | text (s : String) : IsTarget m (.string s)
  | number (n : Number) : IsTarget m (.number n)

inductive TargetFault (m : Model) : Json → Refusal → Prop
  | filter {fields : Record} {r : Refusal}
    (h : Query.IsRefused m.config.columns (.object fields) r) : TargetFault m (.object fields) r
  | blank {fields : Record} (h : Query.IsAccepted m.config.columns (.object fields))
    (hblank : Filter.IsBlank fields) :
    TargetFault m (.object fields) (.noTarget m.config.columns)
  | other {j : Json} (hobject : ∀ fields, j ≠ .object fields) (htext : ∀ s, j ≠ .string s)
    (hnumber : ∀ n, j ≠ .number n) : TargetFault m j (.noTarget m.config.columns)

variable {m : Model} {target : Json} {r : Refusal}

theorem exists_aims_key {j : Json} :
    ∃ l, Leaf.build m.config.idColumn .equals j .and false = .ok l :=
  Leaf.exists_build_iff.mpr fun _ _ _ => .inl rfl

theorem IsTarget.exists_targetFilter (h : m.IsTarget target) :
    ∃ filter, m.targetFilter target = .ok filter := by
  rw [m.targetFilter_eq]
  cases h with
  | @filter fields h hblank =>
    obtain ⟨q, hq⟩ := h.exists_read
    have haims : m.aims (.object fields) = .ok q.filter := congrArg (Except.map Query.filter) hq
    have hne := mt (Query.isAccepted_of_read hq).2.eq_nil_iff.mp hblank
    obtain ⟨n, ns, hfilter⟩ := List.exists_cons_of_ne_nil hne
    rw [haims, hfilter]
    exact ⟨n :: ns, rfl⟩
  | text s =>
    obtain ⟨l, hl⟩ := m.exists_aims_key (j := .string s)
    rw [aims, hl]
    exact ⟨_, rfl⟩
  | number n =>
    obtain ⟨l, hl⟩ := m.exists_aims_key (j := .number n)
    rw [aims, hl]
    exact ⟨_, rfl⟩

theorem TargetFault.eq_error (h : m.TargetFault target r) : m.targetFilter target = .error r := by
  rw [m.targetFilter_eq]
  cases h with
  | filter h =>
    have hquery : m.query _ = .error r := Query.isRefused_iff.mp h
    rw [aims, hquery]
    rfl
  | @blank fields h hblank =>
    obtain ⟨q, hq⟩ := h.exists_read
    have haims : m.aims (.object fields) = .ok q.filter := congrArg (Except.map Query.filter) hq
    rw [haims, (Query.isAccepted_of_read hq).2.eq_nil_iff.mpr hblank]
    rfl
  | other hobject htext hnumber =>
    cases target with
    | object fields => exact absurd rfl (hobject fields)
    | string s => exact absurd rfl (htext s)
    | number n => exact absurd rfl (hnumber n)
    | _ => rfl

theorem isTarget_or_fault (m : Model) (target : Json) :
    m.IsTarget target ∨ ∃ r, m.TargetFault target r := by
  cases target with
  | object fields =>
    rcases Query.isAccepted_or_isRefused m.config.columns (.object fields) with h | ⟨r, h⟩
    · by_cases hblank : Filter.IsBlank fields
      · exact .inr ⟨_, .blank h hblank⟩
      · exact .inl (.filter h hblank)
    · exact .inr ⟨r, .filter h⟩
  | string s => exact .inl (.text s)
  | number n => exact .inl (.number n)
  | _ => exact .inr ⟨_, .other (fun _ => Json.noConfusion) (fun _ => Json.noConfusion)
    fun _ => Json.noConfusion⟩

end Model

/-! ## Calls -/

namespace Call

/-- A search for the first or the last row. -/
inductive IsEdge : Call → Option Json → Prop
  | first (filter : Option Json) : IsEdge (first filter) filter
  | last (filter : Option Json) : IsEdge (last filter) filter

/-- A call that writes a deletion time whether or not the model hides rows. -/
inductive SetsDeletion : Call → Prop
  | delete (now : Calendar.Timestamp) (id : Param) : SetsDeletion (delete now id .soft)
  | restore (id : Param) : SetsDeletion (restore id)

/-- A call whose arguments are in their languages, and whose columns the model has. -/
inductive IsAccepted (m : Model) : Call → Prop
  | get (id : Param) : IsAccepted m (get id)
  | find {filter : Json} (h : Query.IsAccepted m.config.columns filter) :
    IsAccepted m (find filter)
  | all : IsAccepted m all
  | edge {call : Call} {filter : Option Json} (hcall : call.IsEdge filter)
    (hcolumn : m.config.createdColumn ≠ none)
    (h : ∀ j ∈ filter, Query.IsAccepted m.config.columns j) : IsAccepted m call
  | count {filter : Option Json} (h : ∀ j ∈ filter, Query.IsAccepted m.config.columns j) :
    IsAccepted m (count filter)
  | insert {data : Json} (returning : List String)
    (h : Payload.IsInsertable m.writable m.config.naming data) :
    IsAccepted m (insert data returning)
  | update {target data : Json} (returning : List String) (htarget : m.IsTarget target)
    (h : Payload.IsAccepted m.writable m.config.naming true data) :
    IsAccepted m (update target data returning)
  | delete (now : Calendar.Timestamp) (id : Param) {mode : Model.DeleteMode} (hmode : mode ≠ .soft) :
    IsAccepted m (delete now id mode)
  | deletion {call : Call} (hcall : call.SetsDeletion) (hcolumn : m.config.deletedColumn ≠ none) :
    IsAccepted m call

/-- The reason why a call is refused. -/
inductive IsRefused (m : Model) : Call → Refusal → Prop
  | find {filter : Json} {r : Refusal} (h : Query.IsRefused m.config.columns filter r) :
    IsRefused m (find filter) r
  | noCreation {call : Call} {filter : Option Json} (hcall : call.IsEdge filter)
    (hcolumn : m.config.createdColumn = none) :
    IsRefused m call (.noCreationColumn m.config.table)
  | edge {call : Call} {filter : Json} {r : Refusal} (hcall : call.IsEdge (some filter))
    (hcolumn : m.config.createdColumn ≠ none) (h : Query.IsRefused m.config.columns filter r) :
    IsRefused m call r
  | count {filter : Json} {r : Refusal} (h : Query.IsRefused m.config.columns filter r) :
    IsRefused m (count (some filter)) r
  | insert {data : Json} {r : Refusal} (returning : List String)
    (h : Payload.InsertFault m.writable m.config.naming data r) :
    IsRefused m (insert data returning) r
  | target {target : Json} {r : Refusal} (data : Json) (returning : List String)
    (h : m.TargetFault target r) : IsRefused m (update target data returning) r
  | update {target data : Json} {r : Refusal} (returning : List String)
    (htarget : m.IsTarget target) (h : Payload.Fault m.writable m.config.naming true data r) :
    IsRefused m (update target data returning) r
  | noDeletion {call : Call} (hcall : call.SetsDeletion)
    (hcolumn : m.config.deletedColumn = none) :
    IsRefused m call (.noDeletionColumn m.config.table)

variable {m : Model} {call : Call} {r : Refusal}

/-! ## Commands and refusals -/

theorem exists_optionalQuery {filter : Option Json}
    (h : ∀ j ∈ filter, Query.IsAccepted m.config.columns j) :
    ∃ q, m.optionalQuery filter = .ok q := by
  cases filter with
  | none => exact ⟨Query.all, rfl⟩
  | some j => exact (h j rfl).exists_read

/-- A mapped update has a column. -/
theorem exists_update {record : Record} (hne : record ≠ []) (filter : List Node)
    (returning : List String) :
    ∃ command, Statement.update m.config m.writable record filter returning = .ok command := by
  obtain ⟨field, rest, rfl⟩ := List.exists_cons_of_ne_nil hne
  exact ⟨_, rfl⟩

theorem ne_nil_of_map_partial {c : Catalog} {n : Naming} {j : Json} {record : Record}
    (h : Payload.map c n true j = .ok record) : record ≠ [] := by
  cases j with
  | object payload =>
    have houtcome := Payload.outcome_of_map c n true payload
    rw [h] at houtcome
    exact houtcome.1.ne_nil rfl
  | _ => cases h

theorem IsAccepted.exists_command (h : call.IsAccepted m) :
    ∃ command, call.command m = .ok command := by
  cases h with
  | get id => exact ⟨_, rfl⟩
  | all => exact ⟨_, rfl⟩
  | find h =>
    obtain ⟨q, hq⟩ := h.exists_read
    have hquery : m.query _ = .ok q := hq
    rw [command, request, hquery]
    exact ⟨_, rfl⟩
  | edge hcall hcolumn h =>
    obtain ⟨key, hkey⟩ := Option.ne_none_iff_exists'.mp hcolumn
    obtain ⟨q, hq⟩ := exists_optionalQuery h
    cases hcall <;> rw [command, request, Model.edgeQuery, hkey] <;> dsimp only <;> rw [hq] <;>
      exact ⟨_, rfl⟩
  | count h =>
    obtain ⟨q, hq⟩ := exists_optionalQuery h
    rw [command, request, hq]
    exact ⟨_, rfl⟩
  | insert returning h =>
    rw [command_insert]
    exact h.exists_command m.config returning
  | update returning htarget h =>
    obtain ⟨filter, hfilter⟩ := htarget.exists_targetFilter
    obtain ⟨record, hrecord⟩ := Payload.isAccepted_iff.mp h
    rw [command_update, hfilter, hrecord]
    exact exists_update (ne_nil_of_map_partial hrecord) filter returning
  | @delete now id mode hmode =>
    cases mode with
    | soft => exact absurd rfl hmode
    | hard => exact ⟨_, rfl⟩
    | auto =>
      rw [command, request]
      cases m.config.softDeleteColumn? <;> exact ⟨_, rfl⟩
  | deletion hcall hcolumn =>
    obtain ⟨column, hsome⟩ := Option.ne_none_iff_exists'.mp hcolumn
    cases hcall <;> rw [command, request, Model.deletionColumn, hsome] <;> exact ⟨_, rfl⟩

theorem IsRefused.eq_error (h : call.IsRefused m r) : call.command m = .error r := by
  cases h with
  | find h =>
    have hquery : m.query _ = .error r := Query.isRefused_iff.mp h
    rw [command, request, hquery]
    rfl
  | noCreation hcall hcolumn =>
    cases hcall <;> rw [command, request, Model.edgeQuery, hcolumn] <;> rfl
  | @edge call filter r hcall hcolumn h =>
    obtain ⟨key, hkey⟩ := Option.ne_none_iff_exists'.mp hcolumn
    have hquery : m.optionalQuery (some filter) = .error r := Query.isRefused_iff.mp h
    cases hcall <;> rw [command, request, Model.edgeQuery, hkey] <;> dsimp only <;>
      rw [hquery] <;> rfl
  | @count filter r h =>
    have hquery : m.optionalQuery (some filter) = .error r := Query.isRefused_iff.mp h
    rw [command, request, hquery]
    rfl
  | insert returning h =>
    rw [command_insert]
    exact h.eq_error m.config returning
  | target data returning h =>
    rw [command_update, h.eq_error]
    rfl
  | update returning htarget h =>
    obtain ⟨filter, hfilter⟩ := htarget.exists_targetFilter
    rw [command_update, hfilter, Payload.map_eq_error_iff.mpr h]
    rfl
  | noDeletion hcall hcolumn =>
    cases hcall <;> rw [command, request, Model.deletionColumn, hcolumn] <;> rfl

theorem isAccepted_or_exists (m : Model) (filter : Option Json) :
    (∀ j ∈ filter, Query.IsAccepted m.config.columns j) ∨
      ∃ j r, filter = some j ∧ Query.IsRefused m.config.columns j r := by
  cases filter with
  | none => exact .inl nofun
  | some j =>
    rcases Query.isAccepted_or_isRefused m.config.columns j with h | ⟨r, h⟩
    · exact .inl fun i hi => Option.some.inj hi ▸ h
    · exact .inr ⟨j, r, rfl, h⟩

theorem IsEdge.isAccepted_or_isRefused {filter : Option Json} (hcall : call.IsEdge filter) :
    call.IsAccepted m ∨ ∃ r, call.IsRefused m r := by
  by_cases hcolumn : m.config.createdColumn = none
  · exact .inr ⟨_, .noCreation hcall hcolumn⟩
  · rcases isAccepted_or_exists m filter with h | ⟨j, r, rfl, h⟩
    · exact .inl (.edge hcall hcolumn h)
    · exact .inr ⟨r, .edge hcall hcolumn h⟩

theorem SetsDeletion.isAccepted_or_isRefused (hcall : call.SetsDeletion) :
    call.IsAccepted m ∨ ∃ r, call.IsRefused m r := by
  by_cases hcolumn : m.config.deletedColumn = none
  · exact .inr ⟨_, .noDeletion hcall hcolumn⟩
  · exact .inl (.deletion hcall hcolumn)

theorem update_isAccepted_or_isRefused (m : Model) (target data : Json) (returning : List String) :
    (update target data returning).IsAccepted m ∨
      ∃ r, (update target data returning).IsRefused m r := by
  rcases m.isTarget_or_fault target with htarget | ⟨r, h⟩
  · cases hmap : Payload.map m.writable m.config.naming true data with
    | ok record => exact .inl (.update returning htarget (Payload.isAccepted_of_map hmap))
    | error r => exact .inr ⟨r, .update returning htarget (Payload.fault_of_map hmap)⟩
  · exact .inr ⟨r, .target data returning h⟩

theorem isAccepted_or_isRefused (m : Model) (call : Call) :
    call.IsAccepted m ∨ ∃ r, call.IsRefused m r := by
  cases call with
  | get id => exact .inl (.get id)
  | all => exact .inl .all
  | find filter =>
    rcases Query.isAccepted_or_isRefused m.config.columns filter with h | ⟨r, h⟩
    · exact .inl (.find h)
    · exact .inr ⟨r, .find h⟩
  | first filter => exact (IsEdge.first filter).isAccepted_or_isRefused
  | last filter => exact (IsEdge.last filter).isAccepted_or_isRefused
  | count filter =>
    rcases isAccepted_or_exists m filter with h | ⟨j, r, rfl, h⟩
    · exact .inl (.count h)
    · exact .inr ⟨r, .count h⟩
  | insert data returning =>
    rcases Payload.isInsertable_or_fault m.writable m.config.naming data with h | ⟨r, h⟩
    · exact .inl (.insert returning h)
    · exact .inr ⟨r, .insert returning h⟩
  | update target data returning => exact update_isAccepted_or_isRefused m target data returning
  | delete now id mode =>
    cases mode with
    | soft => exact (SetsDeletion.delete now id).isAccepted_or_isRefused
    | hard => exact .inl (.delete now id nofun)
    | auto => exact .inl (.delete now id nofun)
  | restore id => exact (SetsDeletion.restore id).isAccepted_or_isRefused

/-- A call asks the database exactly if it is accepted. -/
theorem isAccepted_iff : call.IsAccepted m ↔ ∃ command, call.command m = .ok command := by
  refine ⟨IsAccepted.exists_command, fun ⟨command, h⟩ => ?_⟩
  rcases isAccepted_or_isRefused m call with haccepted | ⟨r, hr⟩
  · exact haccepted
  · rw [hr.eq_error] at h
    cases h

/-- Any other call is refused, for one reason. -/
theorem isRefused_iff : call.IsRefused m r ↔ call.command m = .error r := by
  refine ⟨IsRefused.eq_error, fun h => ?_⟩
  rcases isAccepted_or_isRefused m call with haccepted | ⟨r', hr⟩
  · obtain ⟨command, hcommand⟩ := haccepted.exists_command
    rw [hcommand] at h
    cases h
  · rw [hr.eq_error] at h
    rwa [← Except.error.inj h]

end Call

end SingleTable
