import SingleTable.Model
import SingleTable.Proofs.Payload.Schema
import SingleTable.Proofs.Sql.Overwriting

/-! # What callers may write

A payload is looked through column by column, and only for the columns that callers may write. So a
statement names no other column, and what else a payload has is not read at all.

* `Config.MayWrite`: columns that callers may write.
* `Payload.SameRow`, `Payload.SameData`: documents that differ only in what no column is looked for
  under.
* `Model.exists_insert`, `Model.exists_update`: what a model issues for a payload.
* `Model.insert_frame`, `Model.update_frame`: what it issues for the same data.
* `Model.writes_permitted`: all of this together.
-/

namespace SingleTable
open Sql

/-! ## Columns -/

namespace Config

/-- Columns of the table, each at most once, and none of those that only the model writes. -/
structure MayWrite (c : Config) (names : List String) : Prop where
  sublist : names.Sublist c.columns.names
  nodup : names.Nodup
  created : ∀ name ∈ c.createdColumn, name ∉ names
  updated : ∀ name ∈ c.updatedColumn, name ∉ names
  deleted : ∀ name ∈ c.deletedColumn, name ∉ names
  id : c.keepId = false → c.idColumn ∉ names

theorem writable_sublist (c : Config) : c.writable.names.Sublist c.columns.names :=
  List.filter_sublist.map Column.name

theorem notMem_writable {c : Config} {name : String} (h : name ∈ c.systemColumns) :
    name ∉ c.writable.names := by
  intro hname
  obtain ⟨x, hx, rfl⟩ := List.mem_map.mp hname
  exact (Catalog.mem_without.mp hx).2 h

theorem mayWrite_of_sublist {c : Config} {names : List String}
    (h : names.Sublist c.writable.names) : c.MayWrite names := by
  have hsystem : ∀ name ∈ c.systemColumns, name ∉ names :=
    fun name hname hmem => notMem_writable hname (h.subset hmem)
  exact {
    sublist := h.trans c.writable_sublist
    nodup := h.nodup c.writable.nodup
    created := fun name hname => hsystem name (by simp [systemColumns, Option.mem_def.mp hname])
    updated := fun name hname => hsystem name (by simp [systemColumns, Option.mem_def.mp hname])
    deleted := fun name hname => hsystem name (by simp [systemColumns, Option.mem_def.mp hname])
    id := fun hkeep => hsystem c.idColumn (by simp [systemColumns, hkeep]) }

end Config

/-! ## Payloads of the same data -/

namespace Payload

/-- The same document, or objects that agree where columns are looked for. -/
inductive SameRow (c : Catalog) (n : Naming) : Json → Json → Prop
  | refl (j : Json) : SameRow c n j j
  | object {payload payload' : Record} (h : Agree c n payload payload') :
      SameRow c n (.object payload) (.object payload')

/-- One row, or a batch of as many rows. -/
inductive SameData (c : Catalog) (n : Naming) : Json → Json → Prop
  | row {j j' : Json} (h : SameRow c n j j') : SameData c n j j'
  | batch {items items' : List Json} (h : List.Forall₂ (SameRow c n) items items') :
      SameData c n (.array items) (.array items')

variable {c : Catalog} {n : Naming} {j j' : Json}

theorem SameRow.map_eq (h : SameRow c n j j') (isPartial : Bool) :
    map c n isPartial j = map c n isPartial j' := by
  cases h with
  | refl j => rfl
  | object h => exact h.map_eq isPartial

/-- A batch is no row, whatever is in it. -/
theorem SameData.map_eq (h : SameData c n j j') (isPartial : Bool) :
    map c n isPartial j = map c n isPartial j' := by
  cases h with
  | row h => exact h.map_eq isPartial
  | batch h => rfl

theorem mapM_eq_of_sameRow {items items' : List Json}
    (h : List.Forall₂ (SameRow c n) items items') (isPartial : Bool) :
    items.mapM (map c n isPartial) = items'.mapM (map c n isPartial) := by
  induction h with
  | nil => rfl
  | cons h _ ih => rw [List.mapM_cons, List.mapM_cons, h.map_eq, ih]

theorem mapAll_eq_of_sameRow {items items' : List Json}
    (h : List.Forall₂ (SameRow c n) items items') (isPartial : Bool) :
    mapAll c n isPartial (.array items) = mapAll c n isPartial (.array items') := by
  have hmapM := mapM_eq_of_sameRow h isPartial
  cases h with
  | nil => rfl
  | cons _ _ => exact hmapM

end Payload

/-! ## Operations -/

namespace Model

theorem mem_run_write {m : Model} {x : Except Refusal Command} {reply : Reply} {command : Command}
    (h : command ∈ ((Operation.ofExcept (do return m.write (← x))).run reply).2) :
    x = .ok command := by
  cases x with
  | error e => cases h
  | ok issued => exact congrArg Except.ok (List.mem_singleton.mp h).symm

theorem exists_insert {m : Model} {data : Json} {returning : List String} {command : Command}
    (h : m.prepareInsert data returning = .ok command) :
    ∃ rows f, m.config.insert m.writable rows returning = .ok f ∧
      m.config.command f = command := by
  have hinsert : ∀ rows, Statement.insert m.config m.writable rows returning = .ok command →
      ∃ rows f, m.config.insert m.writable rows returning = .ok f ∧ m.config.command f = command :=
    fun rows h => ⟨rows, exists_of_map_ok ((Statement.insert_eq ..).symm.trans h)⟩
  unfold prepareInsert at h
  split at h
  · obtain ⟨rows, -, h⟩ := exists_of_bind_ok h
    exact hinsert rows h
  · obtain ⟨rows, -, h⟩ := exists_of_bind_ok h
    exact hinsert rows h

theorem exists_update {m : Model} {target data : Json} {returning : List String}
    {command : Command} (h : m.prepareUpdate target data returning = .ok command) :
    ∃ record filter f, record.keys.Sublist m.writable.names ∧
      m.config.update m.writable record filter returning = .ok f ∧
      m.config.command f = command := by
  obtain ⟨filter, -, h⟩ := exists_of_bind_ok h
  obtain ⟨record, hrecord, h⟩ := exists_of_bind_ok h
  obtain ⟨fields, -, hfields⟩ := Payload.exists_of_map hrecord
  rw [Statement.update_eq] at h
  obtain ⟨f, hf, hcommand⟩ := exists_of_map_ok h
  exact ⟨record, filter, f, Payload.keys_of_mapColumns hfields, hf, hcommand⟩

theorem insert_frame {m : Model} {data data' : Json}
    (h : Payload.SameData m.writable m.config.naming data data') (returning : List String) :
    m.insert data returning = m.insert data' returning := by
  have hprepare : m.prepareInsert data returning = m.prepareInsert data' returning := by
    unfold prepareInsert
    cases h with
    | batch h => rw [Payload.mapAll_eq_of_sameRow h]
    | row h =>
      cases h with
      | refl j => rfl
      | object h => rw [h.map_eq]
  rw [insert, insert, hprepare]

theorem update_frame {m : Model} {data data' : Json}
    (h : Payload.SameData m.writable m.config.naming data data') (target : Json)
    (returning : List String) :
    m.update target data returning = m.update target data' returning := by
  rw [update, update, prepareUpdate, prepareUpdate, h.map_eq]

/-- **Callers write what they may write, and nothing else that they send matters.** The columns that
an insertion lists, and those that an overwriting sets, are columns of the table, each at most once,
and none of the model's own. Data that is the same for these columns is written by the same
command, or refused for the same reason. -/
theorem writes_permitted (m : Model)
    (hnames : ∀ name ∈ m.config.columns.names, Identifier.IsWord name) (returning : List String) :
    (∀ data reply, ∀ command ∈ ((m.insert data returning).run reply).2,
      ∃ i, Insertion.ofCommand? m.config.dialect command = some i ∧
        m.config.MayWrite i.columns) ∧
    (∀ target data reply, ∀ command ∈ ((m.update target data returning).run reply).2,
      ∃ o, Overwriting.ofCommand? m.config.dialect command = some o ∧
        m.config.MayWrite (o.settings.map Setting.column)) ∧
    ∀ data data', Payload.SameData m.writable m.config.naming data data' →
      m.insert data returning = m.insert data' returning ∧
      ∀ target, m.update target data returning = m.update target data' returning := by
  have hwritable : ∀ name ∈ m.writable.names, Identifier.IsWord name :=
    fun name hname => hnames name (m.config.writable_sublist.subset hname)
  refine ⟨?_, ?_, ?_⟩
  · intro data reply command hcommand
    obtain ⟨rows, f, hinsert, rfl⟩ := exists_insert (mem_run_write hcommand)
    exact ⟨_, Config.insertion_insert hwritable hinsert,
      Config.mayWrite_of_sublist List.filter_sublist⟩
  · intro target data reply command hcommand
    obtain ⟨record, filter, f, hkeys, hupdate, rfl⟩ := exists_update (mem_run_write hcommand)
    refine ⟨_, Config.overwriting_update hwritable (fun name hname => hkeys.subset hname) hupdate,
      Config.mayWrite_of_sublist ?_⟩
    have hcolumns : ((m.config.overwriting m.writable record filter returning).settings.map
        Setting.column) = record.keys := List.map_map
    rw [hcolumns]
    exact hkeys
  · exact fun data data' h =>
      ⟨insert_frame h returning, fun target => update_frame h target returning⟩

/-- A creation time, a deletion time and a key are sent in vain. -/
theorem writes_permitted_forged :
    let m : Model :=
      ⟨{ Config.ofTable "users" (.ofList [⟨"id", .serial, false⟩, ⟨"name", .string, true⟩,
          ⟨"created_at", .timestamp, false⟩, ⟨"deleted_at", .timestamp, false⟩]) with
        createdColumn := some "created_at", deletedColumn := some "deleted_at" }, by rfl⟩
    let plain : Record := [("name", .string "x")]
    let forged : Record := [("createdAt", .string "2000-01-01"), ("name", .string "x"),
      ("deleted_at", .null), ("id", .number (.int 7))]
    m.insert (.array [.object forged]) [] = m.insert (.array [.object plain]) [] ∧
      (∃ command, m.insert (.array [.object forged]) [] = .issue command m.writtenRows ∧
        command.sql = "INSERT INTO \"users\" (\"name\") VALUES ($1);" ∧
        ∃ i, Insertion.ofCommand? .postgres command = some i ∧ m.config.MayWrite i.columns) ∧
      ∃ command, m.update (.string "a") (.object forged) [] = .issue command m.writtenRows ∧
        command.sql = "UPDATE \"users\" SET \"name\" = $1 WHERE \"id\" = $2;" ∧
        ∃ o, Overwriting.ofCommand? .postgres command = some o ∧
          m.config.MayWrite (o.settings.map Setting.column) := by
  intro m plain forged
  have hnames : ∀ name ∈ m.config.columns.names, Identifier.IsWord name := by
    dsimp only [m]
    decide +kernel
  obtain ⟨hinsert, hupdate, hframe⟩ := m.writes_permitted hnames []
  have hkeys : ∀ x ∈ m.writable.columns, ∀ key ∈ m.config.naming.candidates x.name,
      key = "name" := by
    dsimp only [m]
    decide +kernel
  have hagree : Payload.Agree m.writable m.config.naming forged plain :=
    Payload.agree_filter (p := (· == "name"))
      (fun x hx key hkey => beq_iff_eq.mpr (hkeys x hx key hkey)) forged
  have hsame : Payload.SameData m.writable m.config.naming (.array [.object forged])
      (.array [.object plain]) := .batch (.cons (.object hagree) .nil)
  refine ⟨(hframe _ _ hsame).1, ⟨_, rfl, by decide +kernel, ?_⟩, _, rfl, by decide +kernel, ?_⟩
  · exact hinsert (.array [.object forged]) (.cancelled .null) _ List.mem_cons_self
  · exact hupdate (.string "a") (.object forged) (.cancelled .null) _ List.mem_cons_self

end Model

end SingleTable
