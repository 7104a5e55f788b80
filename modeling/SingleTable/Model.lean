import SingleTable.Diagnosis
import SingleTable.Rows.Matching
import SingleTable.Sql.Building

/-! # Models

A model offers one table to callers who speak in documents.

* `Model`, `Model.ofConfig`: a configuration without defects; `Model.writable` are the columns that
  callers may write.
* `Reply`: what a database answers to a command; `Outcome`: what an operation ends with.
* `Operation`: a program that asks the database for answers to commands and ends with an outcome;
  `Operation.run` tells which commands were issued.
* `Model.get`, `find`, `all`, `first`, `last`, `count`, `insert`, `update`, `delete`, `restore`.
* `Model.filterRows`, `Model.diagnose`: what needs no database.
-/

namespace SingleTable
open Sql

structure Model where
  config : Config
  usable : config.validate = .ok ()

def Model.ofConfig (c : Config) : Except Config.Defect Model :=
  match h : c.validate with
  | .ok _ => .ok ⟨c, h⟩
  | .error e => .error e

def Model.writable (m : Model) : Catalog := m.config.writable

/-! ## Replies and outcomes -/

/-- The rows that a database hands back, some with remarks of its own beside them. -/
inductive Response
  | rows (rs : List Record)
  | withMeta (rs : List Record) (remarks : Json)

namespace Response

def toRows : Response → List Record
  | rows rs => rs
  | withMeta rs _ => rs

def meta? : Response → Option Json
  | rows _ => none
  | withMeta _ remarks => some remarks

end Response

/-- What comes of a command: a response, an error, or nothing, because waiting was given up or the
connection broke down; the last two say why. -/
inductive Reply
  | response (r : Response)
  | failed (e : DriverError)
  | cancelled (reason : Json)
  | crashed (reason : Json)

inductive Outcome (α : Type)
  | ok (a : α)
  | failed (e : Error)
  | cancelled (reason : Json)
  | crashed (reason : Json)

def Outcome.map {α β : Type} (f : α → β) : Outcome α → Outcome β
  | ok a => ok (f a)
  | failed e => failed e
  | cancelled reason => cancelled reason
  | crashed reason => crashed reason

/-! ## Operations -/

/-- A program that ends, or asks for the reply to a command and goes on with it. -/
inductive Operation (α : Type)
  | done (o : Outcome α)
  | ask (command : Command) (next : Reply → Operation α)

namespace Operation

def refused {α : Type} (r : Refusal) : Operation α := done (.failed (.model r.report))

/-- Asks once, and ends with what is read from the reply. -/
def issue {α : Type} (command : Command) (read : Reply → Outcome α) : Operation α :=
  ask command fun reply => done (read reply)

def ofExcept {α : Type} : Except Refusal (Operation α) → Operation α
  | .ok op => op
  | .error r => refused r

def map {α β : Type} (f : α → β) : Operation α → Operation β
  | done o => done (o.map f)
  | ask command next => ask command fun reply => (next reply).map f

/-- The outcome of an operation when the database answers `reply` every time, and the commands
issued. -/
def run {α : Type} : Operation α → Reply → Outcome α × List Command
  | done o, _ => (o, [])
  | ask command next, reply =>
    let (o, commands) := (next reply).run reply
    (o, command :: commands)

end Operation

namespace Model

def query (m : Model) (filter : Json) : Except Refusal Query := Query.read m.config.columns filter

/-- The query of an optional filter; without one every row is meant. -/
def optionalQuery (m : Model) : Option Json → Except Refusal Query
  | none => .ok Query.all
  | some filter => m.query filter

/-! ## Reading replies -/

/-- An error of a read stays the database's own. -/
def readRows : Reply → Outcome (List Record)
  | .response r => .ok r.toRows
  | .failed e => .failed (.driver e)
  | .cancelled reason => .cancelled reason
  | .crashed reason => .crashed reason

/-- A duplicate that Postgres rejects is an error of the model; other errors of a write stay the
database's own. -/
def writeError (m : Model) (e : DriverError) : Error :=
  if m.config.dialect = .postgres ∧ e.isUniqueViolation then
    let column := Diagnosis.uniqueColumn? m.config.dialect e
    .model (Refusal.duplicate e.detailText column m.config.columns).report
  else .driver e

def writtenRows (m : Model) : Reply → Outcome (List Record)
  | .response r => .ok r.toRows
  | .failed e => .failed (m.writeError e)
  | .cancelled reason => .cancelled reason
  | .crashed reason => .crashed reason

def read (command : Command) : Operation (List Record) := .issue command readRows

def write (m : Model) (command : Command) : Operation (List Record) :=
  .issue command m.writtenRows

/-! ## Reads -/

def get (m : Model) (id : Param) : Operation (Option Record) :=
  (read (Statement.selectById m.config id)).map List.head?

def find (m : Model) (filter : Json) : Operation (List Record) :=
  .ofExcept do
    let q ← m.query filter
    return read (Statement.select m.config q)

def all (m : Model) : Operation (List Record) := read (Statement.select m.config Query.all)

/-- The query for the first row of a filter, by the time at which rows were created. -/
def edgeQuery (m : Model) (filter : Option Json) (direction : Direction) :
    Except Refusal Query :=
  match m.config.createdColumn with
  | none => .error (.noCreationColumn m.config.table)
  | some key => do
    let q ← m.optionalQuery filter
    return (q.withOrder ⟨key, direction⟩).withLimit 1

def edge (m : Model) (filter : Option Json) (direction : Direction) : Operation (Option Record) :=
  .ofExcept do
    let q ← m.edgeQuery filter direction
    return (read (Statement.select m.config q)).map List.head?

def first (m : Model) (filter : Option Json) : Operation (Option Record) :=
  m.edge filter .ascending

def last (m : Model) (filter : Option Json) : Operation (Option Record) :=
  m.edge filter .descending

/-- The number in the column `count` of the first row; anything that is no count reads as zero. -/
def countOf (rows : List Record) : Nat :=
  match rows.head?.bind (·.get? "count") with
  | none => 0
  | some j =>
    let x := j.toDouble
    if x.isFinite then clampUnsigned x.truncate else 0

def count (m : Model) (filter : Option Json) : Operation Nat :=
  .ofExcept do
    let q ← m.optionalQuery filter
    return (read (Statement.count m.config q.filter)).map countOf

/-! ## Writes -/

def prepareInsert (m : Model) (data : Json) (returning : List String) :
    Except Refusal Command := do
  let rows ← match data with
    | .array _ => Payload.mapAll m.writable m.config.naming false data
    | _ => (Payload.map m.writable m.config.naming false data).map ([·])
  Statement.insert m.config m.writable rows returning

def insert (m : Model) (data : Json) (returning : List String) : Operation (List Record) :=
  .ofExcept do return m.write (← m.prepareInsert data returning)

/-- The filter of an update's target: an object is a filter, a text or a number is a primary key,
and a target without any node is refused. -/
def targetFilter (m : Model) (target : Json) : Except Refusal (List Node) := do
  let filter ← match target with
    | .object _ => (m.query target).map Query.filter
    | .string _ | .number _ => do
      let l ← Leaf.build m.config.idColumn .equals target .and false
      pure [.leaf l]
    | _ => pure []
  match filter with
  | [] => .error (.noTarget m.config.columns)
  | nodes => return nodes

def prepareUpdate (m : Model) (target data : Json) (returning : List String) :
    Except Refusal Command := do
  let filter ← m.targetFilter target
  let record ← Payload.map m.writable m.config.naming true data
  Statement.update m.config m.writable record filter returning

def update (m : Model) (target data : Json) (returning : List String) : Operation (List Record) :=
  .ofExcept do return m.write (← m.prepareUpdate target data returning)

/-- How a row is deleted: hidden if the model hides rows, hidden in any case, or removed. -/
inductive DeleteMode
  | auto
  | soft
  | hard
deriving DecidableEq

def deletionColumn (m : Model) : Except Refusal String :=
  match m.config.deletedColumn with
  | some column => .ok column
  | none => .error (.noDeletionColumn m.config.table)

def delete (m : Model) (now : Calendar.Timestamp) (id : Param) (mode : DeleteMode) :
    Operation (List Record) :=
  let hides := match mode with
    | .auto => m.config.softDeleteColumn?.isSome
    | .soft => true
    | .hard => false
  if hides then
    .ofExcept do
      let column ← m.deletionColumn
      return m.write (Statement.setDeleted m.config column (.timestamp now) id)
  else m.write (Statement.hardDelete m.config id)

def restore (m : Model) (id : Param) : Operation (List Record) :=
  .ofExcept do
    let column ← m.deletionColumn
    return m.write (Statement.setDeleted m.config column .null id)

/-! ## Without a database -/

def filterRows (m : Model) (filter : Json) (rows : List Record) : Except Refusal (List Record) := do
  let q ← m.query filter
  return q.apply m.config.dialect rows

/-- The meaning of an error; without one, the columns that there are. -/
def diagnose (m : Model) : Option DriverError → Json ⊕ Diagnosis
  | none => .inl m.config.columns.expected
  | some e => .inr (Diagnosis.ofError m.config.dialect e)

end Model

end SingleTable
