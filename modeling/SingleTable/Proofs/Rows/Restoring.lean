import SingleTable.Proofs.Rows.Hidden
import SingleTable.Proofs.Sql.Agreement
import SingleTable.Proofs.Sql.Keyed

/-! # Rows that are hidden and restored

Deleting a row hides it and back it shows it again: in between no read finds it, and afterwards
nothing but its deletion time may have changed.

* `Config.deletion`, `Config.lookup`: the statements of a deletion and of a read by key.
* `Config.Restores`: a row before a deletion, between deletion and restoration, and after both.
* `Model.delete_restore`: what becomes of all rows of a table.
-/

namespace SingleTable
open Sql

namespace Sql.Assignment

variable {a : Assignment} {r : Record}

theorem apply_of_holds (h : a.key.holds r = true) :
    a.apply r = r.put a.set.column a.set.value.toJson := if_pos h

theorem apply_of_not_holds (h : a.key.holds r = false) : a.apply r = r :=
  if_neg (Bool.not_eq_true _ ▸ h)

/-- Other columns stay as they are. -/
theorem get?_apply_of_ne {other : String} (h : other ≠ a.set.column) :
    (a.apply r).get? other = r.get? other := by
  unfold apply
  split
  · exact Record.get?_put_of_ne r h _
  · rfl

theorem get?_apply_self (h : a.key.holds r = true) :
    (a.apply r).get? a.set.column = some a.set.value.toJson := by
  rw [apply_of_holds h, Record.get?_put_self]

/-- A row keeps its key when another column is set. -/
theorem holds_apply (h : a.key.column ≠ a.set.column) (e : Equation)
    (he : e.column = a.key.column) : e.holds (a.apply r) = e.holds r := by
  unfold Equation.holds Record.get
  rw [he, get?_apply_of_ne h]

theorem getElem?_run (a : Assignment) {rows : List Record} {i : Nat} (h : rows[i]? = some r) :
    (a.run rows)[i]? = some (a.apply r) := by
  rw [run, List.getElem?_map, h, Option.map_some]

end Sql.Assignment

namespace Config

/-- Sets the deletion time of the rows of a key. -/
def deletion (c : Config) (deleted : String) (time id : Param) : Assignment :=
  ⟨[c.table.toList], ⟨deleted, time⟩, ⟨c.idColumn, id⟩⟩

/-- Finds the shown row of a key. -/
def lookup (c : Config) (id : Param) : Lookup :=
  ⟨[c.table.toList], ⟨c.idColumn, id⟩, c.softDeleteColumn?⟩

/-- Does a row have a key? -/
def hasKey (c : Config) (id : Param) (r : Record) : Bool := Equation.holds ⟨c.idColumn, id⟩ r

/-- A row before its deletion, between deletion and restoration, and after both. Where rows are
hidden, the live filter and the read by key are what the reads of a model ask. -/
structure Restores (c : Config) (deleted : String) (id : Param) (before between after : Record) :
    Prop where
  others : ∀ column, column ≠ deleted →
    between.get? column = before.get? column ∧ after.get? column = before.get? column
  apart : c.hasKey id before = false → between = before ∧ after = before
  restored : c.hasKey id before = true → after.get? deleted = some .null
  hidden : c.softDeleteColumn? = some deleted → c.hasKey id before = true →
    (∀ filter, Rows.holds (c.liveFilter filter) between = false) ∧
      ∀ key, (c.lookup key).admits between = false
  shown : c.softDeleteColumn? = some deleted → c.hasKey id before = true →
    (∀ filter, Rows.holds (c.liveFilter filter) after = Rows.holds filter after) ∧
      ∀ key, (c.lookup key).admits after = c.hasKey key after

theorem all_liveFilter {c : Config} {P : Leaf → Prop} {filter : List Node}
    (hdeleted : ∀ deleted ∈ c.softDeleteColumn?, P (.isNull deleted .and))
    (h : ∀ n ∈ filter, n.All P) : ∀ n ∈ c.liveFilter filter, n.All P := by
  unfold liveFilter
  cases hsoft : c.softDeleteColumn? with
  | none => exact h
  | some deleted =>
    intro n hn
    rcases List.mem_append.mp hn with hn | hn
    · split at hn
      · obtain rfl := List.mem_singleton.mp hn
        exact .group .and h
      · exact h n hn
    · obtain rfl := List.mem_singleton.mp hn
      exact .leaf (hdeleted deleted hsoft)

/-- The text of a live filter is true of the rows that the live filter holds of. -/
theorem reads_liveFilter {c : Config} {deleted : String}
    (hsoft : c.softDeleteColumn? = some deleted) (hword : Identifier.IsWord deleted)
    {filter : List Node} (h : ∀ n ∈ filter, n.All Leaf.IsPlain) :
    ∃ text b φ, Binder.writeCondition ⟨c.dialect, 0, []⟩ (c.liveFilter filter) = (some text, b) ∧
      Reads c.dialect b.params text φ ∧
        ∀ r, (φ.truth r).isYes = Rows.holds (c.liveFilter filter) r := by
  have hplain : ∀ n ∈ c.liveFilter filter, n.All Leaf.IsPlain := by
    refine all_liveFilter (fun column hcolumn => ?_) h
    obtain rfl : deleted = column := Option.some.inj (hsoft.symm.trans hcolumn)
    exact Leaf.isPlain_isNull hword .and
  cases hlive : c.liveFilter filter with
  | nil =>
    have hlength := congrArg List.length hlive
    rw [liveFilter, hsoft, List.length_append] at hlength
    cases hlength
  | cons n ns =>
    rw [hlive] at hplain
    obtain ⟨text, b, hwrite, hreads⟩ := reads_writeCondition hplain c.dialect
    refine ⟨text, b, _, hwrite, hreads, fun r => ?_⟩
    rw [Node.isYes_disjunction r ns, Rows.holds, ← Node.isYes_factor r n]
    rfl

theorem admits_lookup (c : Config) (id : Param) (r : Record) :
    (c.lookup id).admits r = (c.hasKey id r && c.shows r) := rfl

theorem shows_of_get? {c : Config} {deleted : String} (h : c.softDeleteColumn? = some deleted)
    {r : Record} {j : Json} (hr : r.get? deleted = some j) : c.shows r = j.isNull := by
  rw [shows, h, Option.all_some, Record.get, hr, Option.getD_some]

theorem restores_apply (c : Config) {deleted : String} (hne : deleted ≠ c.idColumn)
    (now : Calendar.Timestamp) (id : Param) (r : Record) :
    let between := (c.deletion deleted (.timestamp now) id).apply r
    c.Restores deleted id r between ((c.deletion deleted .null id).apply between) := by
  intro between
  let hide := c.deletion deleted (.timestamp now) id
  let back := c.deletion deleted .null id
  have hkey : c.hasKey id between = c.hasKey id r :=
    Assignment.holds_apply (a := hide) (Ne.symm hne) _ rfl
  have hbetween : c.hasKey id r = true → between.get? deleted = some (.string now.isoText) :=
    fun h => Assignment.get?_apply_self (a := hide) h
  have hafter : c.hasKey id r = true → (back.apply between).get? deleted = some .null :=
    fun h => Assignment.get?_apply_self (a := back) (hkey.trans h)
  refine ⟨?_, ?_, hafter, ?_, ?_⟩
  · intro column hcolumn
    have hsame : between.get? column = r.get? column :=
      Assignment.get?_apply_of_ne (a := hide) hcolumn
    exact ⟨hsame, (Assignment.get?_apply_of_ne (a := back) hcolumn).trans hsame⟩
  · intro h
    have hr : between = r := Assignment.apply_of_not_holds h
    refine ⟨hr, ?_⟩
    rw [hr]
    exact Assignment.apply_of_not_holds h
  · intro hsoft h
    have hshows : c.shows between = false := shows_of_get? hsoft (hbetween h)
    refine ⟨fun filter => ?_, fun key => ?_⟩
    · rw [c.holds_liveFilter, hshows, Bool.and_false]
    · rw [admits_lookup, hshows, Bool.and_false]
  · intro hsoft h
    have hshows := shows_of_get? hsoft (hafter h)
    refine ⟨fun filter => ?_, fun key => ?_⟩
    · rw [c.holds_liveFilter, hshows]
      exact Bool.and_true _
    · rw [admits_lookup, hshows]
      exact Bool.and_true _

end Config

namespace Model

/-- **A deletion that is taken back changes no column but the deletion time.** Both calls issue an
update of that column in the rows of the key. Between them no live filter and no read by key finds
such a row, and afterwards the test for missing deletion says nothing about it. -/
theorem delete_restore (m : Model) {deleted : String}
    (hdeleted : m.config.deletedColumn = some deleted) (hne : deleted ≠ m.config.idColumn)
    (htable : Identifier.IsWord m.config.table) (hkey : Identifier.IsWord m.config.idColumn)
    (hword : Identifier.IsWord deleted) (now : Calendar.Timestamp) (id : Param) :
    let hide := m.config.deletion deleted (.timestamp now) id
    let back := m.config.deletion deleted .null id
    (∃ command, m.delete now id .soft = .issue command m.writtenRows ∧
      Assignment.ofCommand? m.config.dialect command = some hide) ∧
    (∃ command, m.restore id = .issue command m.writtenRows ∧
      Assignment.ofCommand? m.config.dialect command = some back) ∧
    (∀ key, ∃ command read, m.get key = .issue command read ∧
      Lookup.ofCommand? m.config.dialect command = some (m.config.lookup key)) ∧
    (m.config.softDeleteColumn? = some deleted →
      ∀ filter, (∀ n ∈ filter, n.All Leaf.IsPlain) →
        let live := m.config.liveFilter filter
        ∃ text b φ, Binder.writeCondition ⟨m.config.dialect, 0, []⟩ live = (some text, b) ∧
          Reads m.config.dialect b.params text φ ∧ ∀ r, (φ.truth r).isYes = Rows.holds live r) ∧
    ∀ rows : List Record,
      let between := hide.run rows
      let after := back.run between
      between.length = rows.length ∧ after.length = rows.length ∧
        ∀ (i : Nat) (r : Record), rows[i]? = some r →
          ∃ s t, between[i]? = some s ∧ after[i]? = some t ∧
            m.config.Restores deleted id r s t := by
  intro hide back
  have hcolumn : m.deletionColumn = .ok deleted := by rw [deletionColumn, hdeleted]
  have hstatement : ∀ time, Assignment.ofCommand? m.config.dialect
      (Statement.setDeleted m.config deleted time id) =
        some (m.config.deletion deleted time id) := by
    intro time
    rw [Statement.setDeleted_eq]
    exact Config.assignment_setDeleted htable hkey hword time id
  refine ⟨⟨_, ?_, hstatement (.timestamp now)⟩, ⟨_, ?_, hstatement .null⟩, ?_, ?_, ?_⟩
  · rw [delete, hcolumn]
    rfl
  · rw [restore, hcolumn]
    rfl
  · intro key
    refine ⟨_, _, rfl, ?_⟩
    rw [Statement.selectById_eq]
    refine Config.lookup_selectById htable hkey ?_ key
    intro column hmem
    have hsoft : m.config.softDeleteColumn? = some column := hmem
    rw [Config.softDeleteColumn?, hdeleted] at hsoft
    split at hsoft
    · rwa [← Option.some.inj hsoft]
    · cases hsoft
  · exact fun hsoft filter hfilter => Config.reads_liveFilter hsoft hword hfilter
  · intro rows between after
    have hlength : between.length = rows.length := List.length_map _
    refine ⟨hlength, (List.length_map _).trans hlength, ?_⟩
    intro i r hr
    have hs : between[i]? = some (hide.apply r) := hide.getElem?_run hr
    exact ⟨_, _, hs, back.getElem?_run hs, m.config.restores_apply hne now id r⟩

theorem delete_restore_first :
    let m : Model :=
      ⟨{ Config.ofTable "users" (.ofList
          [⟨"id", .uuid, false⟩, ⟨"name", .string, false⟩, ⟨"deleted_at", .timestamp, false⟩]) with
         dialect := .mysql, deletedColumn := some "deleted_at" }, by rfl⟩
    let now := Calendar.Timestamp.midnight .epoch
    let first : Record := [("id", .string "a"), ("name", .null), ("deleted_at", .null)]
    let rows := [first, [("id", .string "b"), ("deleted_at", .string "2024-01-31")]]
    let between := (m.config.deletion "deleted_at" (.timestamp now) (.text "a")).run rows
    let after := (m.config.deletion "deleted_at" .null (.text "a")).run between
    m.config.softDeleteColumn? = some "deleted_at" ∧ m.config.hasKey (.text "a") first = true ∧
      ∃ s t, between[0]? = some s ∧ after[0]? = some t ∧
        m.config.Restores "deleted_at" (.text "a") first s t := by
  intro m now first rows between after
  have hdeleted : m.config.deletedColumn = some "deleted_at" := rfl
  have h := m.delete_restore hdeleted (by decide) (by decide) (by decide) (by decide) now (.text "a")
  exact ⟨rfl, by decide +kernel, (h.2.2.2.2 rows).2.2 0 first rfl⟩

end Model

end SingleTable
