import SingleTable.Proofs.Identifier.Quoting
import SingleTable.Proofs.Model.Calls
import SingleTable.Proofs.Model.Target
import SingleTable.Proofs.Sql.Naming

/-! # Names that a model brings into its statements

A configuration is looked over once, and its table only as a whole: what is left of the name must not
be empty. It is quoted segment by segment.

* `Identifier.IsReal`: a text of quoted parts with dots between, none of them empty.
* `Identifier.IsProper`: a name whose segments are neither empty nor a star alone;
  `Identifier.isReal_quote_iff`: these are the names whose quoted texts are real.
* `Config.names`: the names that a configuration brings along; `Call.names`: those of them that the
  statement of a call has.
* `Model.names_real_iff`: for which models the names in all statements are real.
-/

namespace SingleTable
open Sql

/-! ## Real names -/

namespace Identifier

/-- Quoted parts with dots between, none of them empty. -/
def IsReal (q : Char) (text : String) : Prop :=
  ∃ ss : List (List Char), ss ≠ [] ∧ (∀ s ∈ ss, s ≠ [] ∧ q ∉ s) ∧
    text.toList = partsText q (ss.map .quoted)

def IsProper (name : String) : Prop := ∀ s ∈ segments name, s ≠ [] ∧ s ≠ ['*']

instance (name : String) : Decidable (IsProper name) :=
  inferInstanceAs (Decidable (∀ s ∈ segments name, s ≠ [] ∧ s ≠ ['*']))

variable {q : Char}

theorem isReal_quote_iff (hq : isKept q = false) (name : String) :
    IsReal q (quote q name) ↔ IsProper name := by
  have hread := read?_quoteChars hq name
  rw [IsReal, quote, String.toList_ofList]
  constructor
  · rintro ⟨ss, hne, hss, htext⟩
    have hclosed : ∀ p ∈ ss.map Part.quoted, p.IsClosed q := by
      intro p hp
      obtain ⟨s, hs, rfl⟩ := List.mem_map.mp hp
      intro t ht
      obtain rfl := Part.quoted.inj ht
      exact (hss s hs).2
    have hparts := read?_partsText (ne_of_isKept_false hq rfl) (mt List.map_eq_nil_iff.mp hne) hclosed
    rw [← htext, hread] at hparts
    intro s hs
    have hmem : Part.ofSegment s ∈ ss.map Part.quoted :=
      Option.some.inj hparts ▸ List.mem_map_of_mem hs
    obtain ⟨t, ht, hquoted⟩ := List.mem_map.mp hmem
    unfold Part.ofSegment at hquoted
    split at hquoted
    · cases hquoted
    · rename_i hstar
      obtain rfl := Part.quoted.inj hquoted
      exact ⟨(hss t ht).1, hstar⟩
  · intro h
    have hquoted : (segments name).map Part.ofSegment = (segments name).map Part.quoted :=
      List.map_congr_left fun s hs => if_neg (h s hs).2
    refine ⟨segments name, List.splitOn_ne_nil '.' _, fun s hs => ⟨(h s hs).1, fun hmem => ?_⟩, ?_⟩
    · exact ne_of_isKept_false hq (mem_segments hs q hmem).1 rfl
    · rw [quoteChars_eq, hquoted]

/-- A name is not empty when something is left of it. -/
theorem segments_ne_singleton_nil {name : String} (h : (sanitize name).isEmpty = false) :
    segments name ≠ [[]] := by
  intro hs
  have htext := intercalate_segments name
  rw [hs] at htext
  have hempty : sanitize name = "" := by
    rw [sanitize, ← htext]
    rfl
  rw [hempty] at h
  cases h

end Identifier

theorem Dialect.isKept_quoteChar (d : Dialect) : Identifier.isKept d.quoteChar = false := by
  cases d <;> rfl

/-! ## Names of calls -/

/-- The names that belong to the model and not to its callers. -/
def Config.names (c : Config) : List String :=
  c.table :: c.idColumn :: (c.createdColumn.toList ++ c.deletedColumn.toList)

namespace Call

/-- The model's names in the statement of a call. -/
def names (m : Model) : Call → List String
  | get _ => m.config.table :: m.config.idColumn :: m.config.softDeleteColumn?.toList
  | find _ | all | count _ => m.config.table :: m.config.softDeleteColumn?.toList
  | first _ | last _ =>
    m.config.table :: (m.config.softDeleteColumn?.toList ++ m.config.createdColumn.toList)
  | insert .. => [m.config.table]
  | update (.string _) _ _ | update (.number _) _ _ => [m.config.table, m.config.idColumn]
  | update .. => [m.config.table]
  | delete _ _ .hard => [m.config.table, m.config.idColumn]
  | delete _ _ .auto => m.config.table :: m.config.idColumn :: m.config.softDeleteColumn?.toList
  | delete _ _ .soft | restore _ =>
    m.config.table :: m.config.idColumn :: m.config.deletedColumn.toList

variable {m : Model} {call : Call}

theorem mem_commands_iff (reply : Reply) {command : Command} :
    command ∈ ((call.operation m).run reply).2 ↔ call.command m = .ok command := by
  rw [operation_eq]
  cases call.command m with
  | error r => simp [planned, Operation.refused, Operation.run]
  | ok command' => simp [planned, Operation.issue, Operation.run, eq_comm]

section Requests
variable {name : String}

theorem mem_select (q : Query) (h : name ∈ m.config.table :: m.config.softDeleteColumn?.toList) :
    name ∈ (Config.Request.select q).names m.config := by
  rcases List.mem_cons.mp h with rfl | h
  · exact List.mem_cons_self
  · exact List.mem_cons_of_mem _ (List.mem_append_left _ h)

/-- The first and the last row are asked for in the order of their creation. -/
theorem mem_edge {filter : Option Json} {d : Direction} {q : Query}
    (hq : m.edgeQuery filter d = .ok q)
    (h : name ∈ m.config.table ::
      (m.config.softDeleteColumn?.toList ++ m.config.createdColumn.toList)) :
    name ∈ (Config.Request.select q).names m.config := by
  rw [← List.cons_append] at h
  rcases List.mem_append.mp h with h | hcreated
  · exact mem_select q h
  · rw [Model.edgeQuery, Option.mem_toList.mp hcreated] at hq
    obtain ⟨q', -, hq⟩ := exists_of_bind_ok hq
    obtain rfl := Except.ok.inj hq
    exact List.mem_cons_of_mem _ (List.mem_append_right _ List.mem_cons_self)

theorem mem_setDeleted {column : String} (deletion id : Param)
    (h : name ∈ [m.config.table, m.config.idColumn, column]) :
    name ∈ (Config.Request.setDeleted column deletion id).names m.config := by
  simp only [List.mem_cons, List.not_mem_nil, or_false] at h
  simp only [Config.Request.names, List.mem_cons, List.not_mem_nil, or_false]
  exact h.imp_right Or.symm

theorem deletedColumn_of_ok {column : String} (h : m.deletionColumn = .ok column) :
    m.config.deletedColumn = some column := by
  unfold Model.deletionColumn at h
  split at h
  · rename_i hcolumn
    rw [hcolumn, Except.ok.inj h]
  · cases h

/-- A primary key is compared with the column of keys. -/
theorem mem_update {target data : Json} {catalog : Catalog} {record : Record} {filter : List Node}
    {returning : List String} (hfilter : m.targetFilter target = .ok filter)
    (h : name ∈ (update target data returning).names m) :
    name ∈ (Config.Request.update catalog record filter returning).names m.config := by
  rw [m.targetFilter_eq] at hfilter
  cases target with
  | string s =>
    obtain rfl := Except.ok.inj hfilter
    exact h
  | number x =>
    obtain rfl := Except.ok.inj hfilter
    exact h
  | _ =>
    obtain rfl := List.mem_singleton.mp h
    exact List.mem_cons_self

/-- The names of a call are names of its request. -/
theorem mem_request {r : Config.Request} (h : call.request m = .ok r) (hname : name ∈ call.names m) :
    name ∈ r.names m.config := by
  cases call with
  | get id =>
    obtain rfl := Except.ok.inj h
    exact hname
  | find filter =>
    obtain ⟨q, -, h⟩ := exists_of_bind_ok h
    obtain rfl := Except.ok.inj h
    exact mem_select q hname
  | all =>
    obtain rfl := Except.ok.inj h
    exact mem_select .all hname
  | first filter =>
    obtain ⟨q, hq, h⟩ := exists_of_bind_ok h
    obtain rfl := Except.ok.inj h
    exact mem_edge hq hname
  | last filter =>
    obtain ⟨q, hq, h⟩ := exists_of_bind_ok h
    obtain rfl := Except.ok.inj h
    exact mem_edge hq hname
  | count filter =>
    obtain ⟨q, -, h⟩ := exists_of_bind_ok h
    obtain rfl := Except.ok.inj h
    exact hname
  | insert data returning =>
    obtain ⟨rows, -, h⟩ := exists_of_bind_ok h
    obtain rfl := Except.ok.inj h
    exact hname
  | update target data returning =>
    obtain ⟨filter, hfilter, h⟩ := exists_of_bind_ok h
    obtain ⟨record, -, h⟩ := exists_of_bind_ok h
    obtain rfl := Except.ok.inj h
    exact mem_update hfilter hname
  | delete now id mode =>
    cases mode with
    | hard =>
      obtain rfl := Except.ok.inj h
      exact hname
    | soft =>
      obtain ⟨column, hcolumn, h⟩ := exists_of_bind_ok h
      obtain rfl := Except.ok.inj h
      rw [names, deletedColumn_of_ok hcolumn] at hname
      exact mem_setDeleted _ id hname
    | auto =>
      rw [names] at hname
      rw [request] at h
      cases hcolumn : m.config.softDeleteColumn? with
      | none =>
        rw [hcolumn] at h hname
        obtain rfl := Except.ok.inj h
        exact hname
      | some column =>
        rw [hcolumn] at h hname
        obtain rfl := Except.ok.inj h
        exact mem_setDeleted _ id hname
  | restore id =>
    obtain ⟨column, hcolumn, h⟩ := exists_of_bind_ok h
    obtain rfl := Except.ok.inj h
    rw [names, deletedColumn_of_ok hcolumn] at hname
    exact mem_setDeleted _ id hname

end Requests

/-- The names of a call belong to the configuration. -/
theorem names_subset (call : Call) : call.names m ⊆ m.config.names := by
  have htable : m.config.table ∈ m.config.names := List.mem_cons_self
  have hid : m.config.idColumn ∈ m.config.names := List.mem_cons_of_mem _ List.mem_cons_self
  have hcreated : m.config.createdColumn.toList ⊆ m.config.names := fun _ h =>
    List.mem_cons_of_mem _ (List.mem_cons_of_mem _ (List.mem_append_left _ h))
  have hdeleted : m.config.deletedColumn.toList ⊆ m.config.names := fun _ h =>
    List.mem_cons_of_mem _ (List.mem_cons_of_mem _ (List.mem_append_right _ h))
  have hsoft : m.config.softDeleteColumn?.toList ⊆ m.config.names := by
    unfold Config.softDeleteColumn?
    split
    · exact hdeleted
    · exact List.nil_subset _
  fun_cases names m call <;>
    simp only [List.cons_subset, List.append_subset, List.nil_subset, htable, hid, hcreated,
      hdeleted, hsoft, and_self]

/-- Each name of a configuration is one of a call that is always issued. -/
theorem exists_call {name : String} (h : name ∈ m.config.names) :
    ∃ call command, Call.command m call = .ok command ∧ name ∈ call.names m := by
  simp only [Config.names, List.mem_cons, List.mem_append, Option.mem_toList] at h
  obtain rfl | rfl | hcreated | hdeleted := h
  · exact ⟨.get .null, _, rfl, List.mem_cons_self⟩
  · exact ⟨.get .null, _, rfl, List.mem_cons_of_mem _ List.mem_cons_self⟩
  · have hquery : m.edgeQuery none .ascending =
        .ok ((Query.all.withOrder ⟨name, .ascending⟩).withLimit 1) := by
      rw [Model.edgeQuery, hcreated]
      rfl
    refine ⟨.first none, Statement.select m.config
      ((Query.all.withOrder ⟨name, .ascending⟩).withLimit 1), ?_, ?_⟩
    · rw [command, request, hquery]
      rfl
    · rw [names, hcreated]
      simp
  · have hcolumn : m.deletionColumn = .ok name := by
      rw [Model.deletionColumn, hdeleted]
    refine ⟨.restore .null, Statement.setDeleted m.config name .null .null, ?_, ?_⟩
    · rw [command, request, hcolumn]
      rfl
    · rw [names, hdeleted]
      simp

end Call

namespace Model

/-- **The names in the statements of a model are real exactly when its configuration's names are
proper.** A configuration that was accepted leaves something of its table's name; and the names of a
call are read in its statement, whatever the call asks for. -/
theorem names_real_iff (m : Model) :
    Identifier.segments m.config.table ≠ [[]] ∧
      (∀ (call : Call) (reply : Reply), ∀ command ∈ ((call.operation m).run reply).2,
        ∃ ps, command.paths? m.config.dialect = some ps ∧
          ∀ name ∈ call.names m, Identifier.segments name ∈ ps) ∧
      ((∀ (call : Call) (reply : Reply), ∀ command ∈ ((call.operation m).run reply).2,
          ∀ name ∈ call.names m,
            Identifier.IsReal m.config.dialect.quoteChar (m.config.dialect.quote name)) ↔
        ∀ name ∈ m.config.names, Identifier.IsProper name) := by
  have hreal : ∀ name : String,
      Identifier.IsReal m.config.dialect.quoteChar (m.config.dialect.quote name) ↔
        Identifier.IsProper name :=
    Identifier.isReal_quote_iff m.config.dialect.isKept_quoteChar
  refine ⟨?_, ?_, ?_⟩
  · have husable := m.usable
    unfold Config.validate at husable
    split at husable
    · cases husable
    · rename_i htable
      exact Identifier.segments_ne_singleton_nil (Bool.eq_false_iff.mpr htable)
  · intro call reply command hcommand
    obtain ⟨r, hr, hstatement⟩ := exists_of_bind_ok ((Call.mem_commands_iff reply).mp hcommand)
    obtain ⟨ps, hps, hmem⟩ := Config.exists_paths hstatement
    exact ⟨ps, hps, fun name hname => hmem name (Call.mem_request hr hname)⟩
  · constructor
    · intro h name hname
      obtain ⟨call, command, hcommand, hmem⟩ := Call.exists_call hname
      have hissued := (Call.mem_commands_iff (.cancelled .null)).mpr hcommand
      exact (hreal name).mp (h call _ command hissued name hmem)
    · intro h call _ _ _ name hname
      exact (hreal name).mpr (h name (call.names_subset hname))

theorem names_unreal :
    ∃ (m : Model) (command : Command),
      m.config = Config.ofTable "." (.ofList [⟨"id", .serial, false⟩]) ∧
      (Call.get (.bigInt 1)).command m = .ok command ∧
      command.sql = "SELECT * FROM \"\".\"\" WHERE \"id\" = $1 LIMIT 1;" ∧
      ¬ Identifier.IsReal '"' (m.config.dialect.quote m.config.table) := by
  have hproper : ¬ Identifier.IsProper "." := by decide +kernel
  refine ⟨⟨Config.ofTable "." (.ofList [⟨"id", .serial, false⟩]), by rfl⟩, _, rfl, rfl,
    by decide +kernel, fun hreal => hproper ?_⟩
  exact (Identifier.isReal_quote_iff (by decide) ".").mp hreal

end Model

end SingleTable
