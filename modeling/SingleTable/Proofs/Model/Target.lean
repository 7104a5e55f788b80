import SingleTable.Model
import SingleTable.Proofs.Filter.Normal
import SingleTable.Proofs.Sql.Building

/-! # Targets of updates

An update without a target would overwrite a whole table. Its target is read as a list of nodes, and
what is refused is the empty list. A group without nodes is a node, although it compares nothing.

* `Model.aims`: the nodes of a target.
* `Node.IsBare`: a node without a comparison at any depth; it holds of every row.
* `Model.update_aimed`: what becomes of an update by the nodes of its target.
-/

namespace SingleTable

/-! ## Nodes that compare nothing -/

/-- A node without a leaf at any depth. -/
def Node.IsBare (n : Node) : Prop := n.All fun _ => False

namespace Node

theorem holdsRun_of_forall (r : Record) {ns : List Node} (h : ∀ n ∈ ns, n.holds r = true) :
    holdsRun r true ns = true := by
  induction ns with
  | nil => rfl
  | cons n ns ih =>
    have hn : n.holds r = true := h n List.mem_cons_self
    have hns : holdsRun r true ns = true := ih fun k hk => h k (List.mem_cons_of_mem n hk)
    rw [holdsRun]
    cases n.chain with
    | and => simpa [hn] using hns
    | or => rfl

theorem IsBare.holds (r : Record) {n : Node} (h : n.IsBare) : n.holds r = true := by
  unfold IsBare at h
  induction h with
  | leaf h => exact h.elim
  | @group c ns _ ih =>
    cases ns with
    | nil => rfl
    | cons n ns =>
      rw [Node.holds, ih n List.mem_cons_self]
      exact holdsRun_of_forall r fun k hk => ih k (List.mem_cons_of_mem n hk)

end Node

theorem Rows.holds_of_isBare (r : Record) {filter : List Node} (h : ∀ n ∈ filter, n.IsBare) :
    Rows.holds filter r = true := by
  cases filter with
  | nil => rfl
  | cons n ns =>
    rw [Rows.holds, (h n List.mem_cons_self).holds r]
    exact Node.holdsRun_of_forall r fun k hk => (h k (List.mem_cons_of_mem n hk)).holds r

/-! ## Targets -/

namespace Model

/-- The nodes of a target: those of a filter, or the primary key's. Other documents have none. -/
def aims (m : Model) (target : Json) : Except Refusal (List Node) :=
  match target with
  | .object _ => (m.query target).map Query.filter
  | .string _ | .number _ =>
    (Leaf.build m.config.idColumn .equals target .and false).map fun l => [.leaf l]
  | _ => .ok []

theorem targetFilter_eq (m : Model) (target : Json) :
    m.targetFilter target =
      m.aims target >>= fun
        | [] => .error (.noTarget m.config.columns)
        | nodes => .ok nodes := by
  unfold targetFilter aims
  cases target with
  | string s => cases Leaf.build m.config.idColumn .equals (.string s) .and false <;> rfl
  | number x => cases Leaf.build m.config.idColumn .equals (.number x) .and false <;> rfl
  | _ => rfl

/-- A primary key is compared. -/
theorem isObject_of_isBare {m : Model} {target : Json} {n : Node} {ns : List Node}
    (h : m.aims target = .ok (n :: ns)) (hbare : n.IsBare) : target.isObject = true := by
  unfold aims at h
  have hkey : ∀ x : Except Refusal Leaf, x.map (fun l => [Node.leaf l]) ≠ .ok (n :: ns) := by
    intro x hx
    obtain ⟨l, -, hl⟩ := exists_of_map_ok hx
    obtain ⟨rfl, -⟩ := List.cons.inj hl
    cases hbare with
    | leaf h => exact h
  cases target with
  | object fields => rfl
  | string s => exact absurd h (hkey _)
  | number x => exact absurd h (hkey _)
  | _ => cases h

/-- The write of the command that a fragment makes. -/
def writeOperation (m : Model) (f : Sql.Fragment) : Operation (List Record) :=
  m.write (m.config.command f)

theorem map_write_update (m : Model) (record : Record) (filter : List Node)
    (returning : List String) :
    (Statement.update m.config m.writable record filter returning).map m.write =
      (m.config.update m.writable record filter returning).map m.writeOperation := by
  rw [Statement.update_eq]
  cases m.config.update m.writable record filter returning <;> rfl

/-- **A target without nodes is refused; a target whose nodes compare nothing is every row.** Only
a filter can be such a target, and its update is issued like that of any other. -/
theorem update_aimed (m : Model) (target data : Json) (returning : List String) :
    match m.aims target with
    | .error e => m.update target data returning = .refused e
    | .ok [] => m.update target data returning = .refused (.noTarget m.config.columns)
    | .ok (n :: ns) =>
      m.update target data returning = .ofExcept (do
        let record ← Payload.map m.writable m.config.naming true data
        return m.writeOperation (← m.config.update m.writable record (n :: ns) returning)) ∧
      ((∀ k ∈ n :: ns, k.IsBare) →
        target.isObject = true ∧ ∀ r, Rows.holds (n :: ns) r = true) := by
  have htarget := m.targetFilter_eq target
  have hobject := @isObject_of_isBare m target
  unfold update prepareUpdate
  rw [htarget]
  cases h : m.aims target with
  | error e => rfl
  | ok nodes =>
    cases nodes with
    | nil => rfl
    | cons n ns =>
      refine ⟨?_, fun hbare => ⟨hobject h (hbare n List.mem_cons_self), fun r => ?_⟩⟩
      · cases Payload.map m.writable m.config.naming true data with
        | error e => rfl
        | ok record => exact congrArg Operation.ofExcept (m.map_write_update record _ returning)
      · exact Rows.holds_of_isBare r hbare

/-- A group without entries compares nothing, and yet every row is overwritten. -/
theorem update_bare :
    let m : Model :=
      ⟨Config.ofTable "users" (.ofList [⟨"id", .serial, false⟩, ⟨"name", .string, false⟩]), by rfl⟩
    let target := Json.object [("where", .array [.object [("where", .array [])]])]
    let data := Json.object [("name", .string "x")]
    m.targetFilter target = .ok [.group .and []] ∧ (Node.group .and []).IsBare ∧
      ∃ command, m.update target data [] = .issue command m.writtenRows ∧
        command.sql = "UPDATE \"users\" SET \"name\" = $1 WHERE 1 = 1;" := by
  intro m target data
  have hentry : Filter.readEntry m.config.columns [("where", .array [])] =
      .ok (.group .and []) := by
    rw [Filter.readEntry_group _ rfl, Filter.readEntries, Filter.readItems]
    rfl
  have hread : Filter.read m.config.columns target = .ok [.group .and []] := by
    change Filter.readEntries m.config.columns (.array _) = _
    rw [Filter.readEntries, Filter.readItems, hentry, Filter.readItems]
    rfl
  have haims : m.aims target = .ok [.group .and []] := by
    change (Query.read m.config.columns target).map Query.filter = _
    unfold Query.read
    rw [hread]
    rfl
  have htarget : m.targetFilter target = .ok [.group .and []] := by
    rw [m.targetFilter_eq, haims]
    rfl
  have hdata : Payload.map m.writable m.config.naming true data =
      .ok [("name", .string "x")] := rfl
  have hprepare : m.prepareUpdate target data [] =
      Statement.update m.config m.writable [("name", .string "x")] [.group .and []] [] := by
    unfold prepareUpdate
    rw [htarget, hdata]
    rfl
  have hupdate : m.update target data [] = .ofExcept
      ((Statement.update m.config m.writable [("name", .string "x")] [.group .and []] []).map
        m.write) := by
    unfold update
    rw [hprepare]
    rfl
  have hbare : (Node.group .and []).IsBare := .group .and fun n hn => absurd hn List.not_mem_nil
  exact ⟨htarget, hbare, _, hupdate, by decide +kernel⟩

end Model

end SingleTable
