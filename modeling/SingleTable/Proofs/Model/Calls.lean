import SingleTable.Proofs.Model.Target
import SingleTable.Proofs.Payload.Faults

/-! # Calls

* `Call`: a call of a model with its arguments; `Answer`: what it hands back.
* `Call.request`, `Call.command`: the statement that a call asks for, unless it is refused.
* `Call.outcome`: what the reply to that statement comes to.
* `Call.operation_eq`: every operation is a refusal, or asks once.
-/

namespace SingleTable
open Sql

/-! ## Errors of writes -/

namespace DriverError

theorem isUniqueViolation_iff (e : DriverError) :
    e.isUniqueViolation = true ↔ Diagnosis.Kind.ofPostgresCode e.code = .duplicateValue := by
  rw [isUniqueViolation, beq_iff_eq]
  constructor
  · intro h
    rw [h]
    rfl
  · intro h
    unfold Diagnosis.Kind.ofPostgresCode at h
    split at h <;> first | assumption | cases h

end DriverError

namespace Model

/-- The error of an operation, by what the database's error means. Only a duplicate that Postgres
finds in a write is told as the model's own. -/
def errorOf (m : Model) (writes : Bool) (e : DriverError) : Error :=
  let d := Diagnosis.ofError m.config.dialect e
  if writes = true ∧ m.config.dialect = .postgres ∧ d.kind = .duplicateValue then
    .model ⟨.duplicateValue, d.detail, d.column, some m.config.columns.expected⟩
  else .driver e

theorem errorOf_read (m : Model) (e : DriverError) : m.errorOf false e = .driver e := by
  unfold errorOf
  exact if_neg fun h => Bool.false_ne_true h.1

/-- The two readings of an error, by its code alone and by its diagnosis, find the same duplicates
and say the same of them. -/
theorem writeError_eq (m : Model) (e : DriverError) : m.writeError e = m.errorOf true e := by
  unfold writeError errorOf
  cases hd : m.config.dialect with
  | mysql => rfl
  | postgres =>
    simp only [e.isUniqueViolation_iff, true_and]
    split
    · rename_i h
      rw [Diagnosis.ofError]
      simp only [Diagnosis.Kind.ofCode, h, if_true]
      rfl
    · rename_i h
      exact (if_neg h).symm

end Model

/-! ## Calls -/

/-- A call that may ask the database. The time of a deletion is an argument too. -/
inductive Call
  | get (id : Param)
  | find (filter : Json)
  | all
  | first (filter : Option Json)
  | last (filter : Option Json)
  | count (filter : Option Json)
  | insert (data : Json) (returning : List String)
  | update (target data : Json) (returning : List String)
  | delete (now : Calendar.Timestamp) (id : Param) (mode : Model.DeleteMode)
  | restore (id : Param)

inductive Answer
  | row (r : Option Record)
  | rows (rs : List Record)
  | number (n : Nat)

namespace Call

def operation (m : Model) : Call → Operation Answer
  | get id => (m.get id).map .row
  | find filter => (m.find filter).map .rows
  | all => m.all.map .rows
  | first filter => (m.first filter).map .row
  | last filter => (m.last filter).map .row
  | count filter => (m.count filter).map .number
  | insert data returning => (m.insert data returning).map .rows
  | update target data returning => (m.update target data returning).map .rows
  | delete now id mode => (m.delete now id mode).map .rows
  | restore id => (m.restore id).map .rows

def writes : Call → Bool
  | insert .. | update .. | delete .. | restore .. => true
  | _ => false

def view : Call → List Record → Answer
  | get _ | first _ | last _ => fun rs => .row rs.head?
  | count _ => fun rs => .number (Model.countOf rs)
  | _ => .rows

/-- The statement that a call asks for, when its arguments can be parsed and mapped. -/
def request (m : Model) : Call → Except Refusal Config.Request
  | get id => .ok (.selectById id)
  | find filter => do return .select (← m.query filter)
  | all => .ok (.select Query.all)
  | first filter => do return .select (← m.edgeQuery filter .ascending)
  | last filter => do return .select (← m.edgeQuery filter .descending)
  | count filter => do return .count (← m.optionalQuery filter).filter
  | insert data returning => do
    return .insert m.writable (← Payload.mapData m.writable m.config.naming data) returning
  | update target data returning => do
    let filter ← m.targetFilter target
    return .update m.writable (← Payload.map m.writable m.config.naming true data) filter returning
  | delete _ id .hard => .ok (.hardDelete id)
  | delete now id .soft => do return .setDeleted (← m.deletionColumn) (.timestamp now) id
  | delete now id .auto =>
    match m.config.softDeleteColumn? with
    | some column => .ok (.setDeleted column (.timestamp now) id)
    | none => .ok (.hardDelete id)
  | restore id => do return .setDeleted (← m.deletionColumn) .null id

/-- The command of a call, when the request of its arguments is a valid one. -/
def command (m : Model) (call : Call) : Except Refusal Command :=
  call.request m >>= m.config.statement

/-- What a call ends with, by the reply to its command and nothing else. -/
def outcome (m : Model) (call : Call) : Reply → Outcome Answer
  | .response r => .ok (call.view r.toRows)
  | .failed e => .failed (m.errorOf call.writes e)
  | .cancelled reason => .cancelled reason
  | .crashed reason => .crashed reason

/-- The operation that asks what the call asks and reads the reply as the call does. -/
def planned (m : Model) (call : Call) : Except Refusal Command → Operation Answer
  | .error e => .refused e
  | .ok command => .issue command (call.outcome m)

end Call

/-! ## Operations -/

theorem Outcome.map_map {α β γ : Type} (f : α → β) (g : β → γ) (o : Outcome α) :
    (o.map f).map g = o.map (g ∘ f) := by
  cases o <;> rfl

theorem Operation.map_map {α β γ : Type} (f : α → β) (g : β → γ) (op : Operation α) :
    (op.map f).map g = op.map (g ∘ f) := by
  induction op with
  | done o => exact congrArg done (o.map_map f g)
  | ask command next ih => exact congrArg (ask command) (funext ih)

namespace Model

theorem map_edge {α : Type} (m : Model) (filter : Option Json) (d : Direction)
    (f : Option Record → α) :
    (m.edge filter d).map f =
      .ofExcept ((m.edgeQuery filter d).map fun q =>
        (read (Statement.select m.config q)).map (f ∘ List.head?)) := by
  unfold edge
  cases m.edgeQuery filter d with
  | error e => rfl
  | ok q => exact Operation.map_map List.head? f (read (Statement.select m.config q))

theorem deletionColumn_of_some {m : Model} {column : String}
    (h : m.config.softDeleteColumn? = some column) : m.deletionColumn = .ok column := by
  unfold Config.softDeleteColumn? at h
  split at h
  · rw [deletionColumn, h]
  · cases h

theorem delete_auto_some {m : Model} {column : String} (now : Calendar.Timestamp) (id : Param)
    (h : m.config.softDeleteColumn? = some column) :
    m.delete now id .auto =
      m.write (Statement.setDeleted m.config column (.timestamp now) id) := by
  simp only [delete, h, Option.isSome_some, if_true, deletionColumn_of_some h]
  rfl

theorem delete_auto_none {m : Model} (now : Calendar.Timestamp) (id : Param)
    (h : m.config.softDeleteColumn? = none) :
    m.delete now id .auto = m.write (Statement.hardDelete m.config id) := by
  simp only [delete, h, Option.isSome_none, Bool.false_eq_true, if_false]

end Model

namespace Call

def issued (m : Model) (call : Call) (command : Command) : Operation (List Record) :=
  match call.writes with
  | true => m.write command
  | false => Model.read command

theorem command_insert (m : Model) (data : Json) (returning : List String) :
    (insert data returning).command m =
      Payload.mapData m.writable m.config.naming data >>= fun rows =>
        Statement.insert m.config m.writable rows returning := by
  rw [command, request]
  cases Payload.mapData m.writable m.config.naming data <;> rfl

theorem command_update (m : Model) (target data : Json) (returning : List String) :
    (update target data returning).command m =
      m.targetFilter target >>= fun filter =>
        Payload.map m.writable m.config.naming true data >>= fun record =>
          Statement.update m.config m.writable record filter returning := by
  rw [command, request]
  cases m.targetFilter target with
  | error e => rfl
  | ok filter => cases Payload.map m.writable m.config.naming true data <;> rfl

theorem prepareInsert_eq (m : Model) (data : Json) (returning : List String) :
    m.prepareInsert data returning = (insert data returning).command m := by
  rw [command_insert]
  unfold Model.prepareInsert Payload.mapData
  cases data <;> rfl

theorem prepareUpdate_eq (m : Model) (target data : Json) (returning : List String) :
    m.prepareUpdate target data returning = (update target data returning).command m := by
  rw [command_update]
  rfl

theorem map_issued (m : Model) (call : Call) (command : Command) :
    (call.issued m command).map call.view = call.planned m (.ok command) := by
  have hreply : ∀ (read : Reply → Outcome (List Record)),
      (∀ reply, (read reply).map call.view = call.outcome m reply) →
        (Operation.issue command read).map call.view = call.planned m (.ok command) :=
    fun read h =>
      congrArg (Operation.ask command) (funext fun reply => congrArg Operation.done (h reply))
  unfold issued
  cases hw : call.writes with
  | true =>
    refine hreply m.writtenRows fun reply => ?_
    cases reply with
    | failed e => exact congrArg Outcome.failed (hw ▸ m.writeError_eq e)
    | _ => rfl
  | false =>
    refine hreply Model.readRows fun reply => ?_
    cases reply with
    | failed e => exact congrArg Outcome.failed (hw ▸ (m.errorOf_read e).symm)
    | _ => rfl

theorem operation_eq_issued (m : Model) (call : Call) :
    call.operation m =
      (Operation.ofExcept ((call.command m).map (call.issued m))).map call.view := by
  cases call with
  | get id =>
    rw [operation, Model.get, Operation.map_map]
    rfl
  | find filter =>
    rw [operation, Model.find, command, request]
    cases m.query filter <;> rfl
  | all => rfl
  | first filter =>
    rw [operation, Model.first, Model.map_edge, command, request]
    cases m.edgeQuery filter .ascending <;> rfl
  | last filter =>
    rw [operation, Model.last, Model.map_edge, command, request]
    cases m.edgeQuery filter .descending <;> rfl
  | count filter =>
    rw [operation, Model.count, command, request]
    cases m.optionalQuery filter with
    | error e => rfl
    | ok q =>
      exact Operation.map_map Model.countOf Answer.number
        (Model.read (Statement.count m.config q.filter))
  | insert data returning =>
    rw [operation, Model.insert, prepareInsert_eq]
    cases (insert data returning).command m <;> rfl
  | update target data returning =>
    rw [operation, Model.update, prepareUpdate_eq]
    cases (update target data returning).command m <;> rfl
  | delete now id mode =>
    rw [operation, command]
    cases mode with
    | hard => rfl
    | soft =>
      rw [request]
      change (Operation.ofExcept _).map Answer.rows = _
      cases m.deletionColumn <;> rfl
    | auto =>
      rw [request]
      cases h : m.config.softDeleteColumn? with
      | none => rw [Model.delete_auto_none now id h]; rfl
      | some column => rw [Model.delete_auto_some now id h]; rfl
  | restore id =>
    rw [operation, Model.restore, command, request]
    cases m.deletionColumn <;> rfl

/-- An operation is refused with what is wrong in its arguments, or issues the command that they ask
for. Its outcome is then made of the reply alone. -/
theorem operation_eq (m : Model) (call : Call) :
    call.operation m = call.planned m (call.command m) := by
  rw [operation_eq_issued]
  cases call.command m with
  | error e => rfl
  | ok command => exact map_issued m call command

end Call

end SingleTable
