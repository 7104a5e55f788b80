import SingleTable.Model
import SingleTable.Proofs.Sql.Building

/-! # Hidden rows

A row is hidden by a deletion time, and a filter that is written down for the database gets a test
for the missing one. Rows in memory are filtered as they stand.

* `Config.shows`: is a row not hidden?
* `Config.holds_liveFilter`: the live filter holds of the shown rows of a filter, however its nodes
  are joined.
* `Model.filterRows_of_shown`: what is selected from a table is what the filter selects from the
  shown rows.
-/

namespace SingleTable

/-! ## Nodes joined by `AND` -/

theorem Node.holdsRun_of_and (r : Record) (run : Bool) {ns : List Node}
    (h : ∀ n ∈ ns, n.chain = .and) : holdsRun r run ns = (run && ns.all (·.holds r)) := by
  induction ns generalizing run with
  | nil => simp [holdsRun]
  | cons n ns ih =>
    have hn : n.chain = .and := h n List.mem_cons_self
    have hns : ∀ k ∈ ns, k.chain = .and := fun k hk => h k (List.mem_cons_of_mem n hk)
    rw [holdsRun, hn]
    change holdsRun r (run && n.holds r) ns = _
    rw [ih _ hns, List.all_cons, Bool.and_assoc]

theorem Node.holds_group (r : Record) (c : Chain) (ns : List Node) :
    (group c ns).holds r = Rows.holds ns r := by
  cases ns <;> rfl

theorem Rows.holds_of_and (r : Record) {filter : List Node}
    (h : ∀ n ∈ filter.drop 1, n.chain = .and) :
    Rows.holds filter r = filter.all (·.holds r) := by
  cases filter with
  | nil => rfl
  | cons n ns =>
    have hns : ∀ k ∈ ns, k.chain = .and := by simpa using h
    change Node.holdsRun r (n.holds r) ns = _
    rw [Node.holdsRun_of_and r _ hns, List.all_cons]

theorem Rows.holds_append (r : Record) {filter : List Node} {last : Node}
    (h : ∀ n ∈ filter.drop 1, n.chain = .and) (hlast : last.chain = .and) :
    Rows.holds (filter ++ [last]) r = (Rows.holds filter r && last.holds r) := by
  have hall : ∀ n ∈ (filter ++ [last]).drop 1, n.chain = .and := by
    intro n hn
    cases filter with
    | nil => simp at hn
    | cons k ks =>
      have hn' : n ∈ ks ∨ n = last := by simpa using hn
      rcases hn' with hn' | rfl
      · exact h n hn'
      · exact hlast
  rw [holds_of_and r hall, holds_of_and r h, List.all_append]
  simp

/-! ## Rows that are shown -/

theorem Record.isNull_get {r : Record} {key : String} :
    (r.get key).isNull = true ↔ r.get? key = none ∨ r.get? key = some .null := by
  unfold get
  cases h : r.get? key with
  | none => simp [Json.isNull]
  | some j => cases j <;> simp [Json.isNull]

namespace Config

/-- Does a row have no deletion time, if that is what hides rows? -/
def shows (c : Config) (r : Record) : Bool :=
  c.softDeleteColumn?.all fun deleted => (r.get deleted).isNull

theorem holds_liveFilter (c : Config) (filter : List Node) (r : Record) :
    Rows.holds (c.liveFilter filter) r = (Rows.holds filter r && c.shows r) := by
  unfold liveFilter shows
  cases c.softDeleteColumn? with
  | none => simp
  | some deleted =>
    have htest : (Node.leaf (.isNull deleted .and)).holds r = (r.get deleted).isNull := rfl
    rw [Option.all_some, ← htest]
    dsimp only
    split
    · rw [Rows.holds_append r (by simp) rfl, ← Node.holds_group r .and filter]
      rfl
    · rename_i hor
      refine Rows.holds_append r (fun n hn => ?_) rfl
      have hne : n.chain ≠ .or := fun h => hor (List.any_eq_true.mpr ⟨n, hn, by simpa using h⟩)
      cases hc : n.chain with
      | and => rfl
      | or => exact absurd hc hne

/-- **Hiding rows is exact.** The live filter holds of the rows that the filter holds of and that
have no deletion time; where rows are not hidden it is the filter itself. -/
theorem liveFilter_exact (c : Config) (filter : List Node) (r : Record) :
    match c.softDeleteColumn? with
    | none => c.liveFilter filter = filter
    | some deleted =>
      Rows.holds (c.liveFilter filter) r = true ↔
        Rows.holds filter r = true ∧ (r.get? deleted = none ∨ r.get? deleted = some .null) := by
  have hlive := c.holds_liveFilter filter r
  unfold shows at hlive
  cases hd : c.softDeleteColumn? with
  | none =>
    dsimp only
    rw [liveFilter, hd]
  | some deleted =>
    rw [hd, Option.all_some] at hlive
    dsimp only
    rw [hlive, Bool.and_eq_true, Record.isNull_get]

theorem filter_liveFilter (c : Config) (filter : List Node) (rows : List Record) :
    Rows.filter (c.liveFilter filter) rows = Rows.filter filter (rows.filter c.shows) := by
  unfold Rows.filter
  rw [List.filter_filter]
  exact List.filter_congr fun r _ => c.holds_liveFilter filter r

end Config

/-! ## Rows of a table and rows in memory -/

/-- The query that is written down for a query: only shown rows satisfy it. -/
def Query.live (q : Query) (c : Config) : Query := { q with filter := c.liveFilter q.filter }

theorem Query.apply_live (q : Query) (c : Config) (d : Dialect) (rows : List Record) :
    (q.live c).apply d rows = q.apply d (rows.filter c.shows) := by
  unfold apply live
  dsimp only
  rw [c.filter_liveFilter]

namespace Model

/-- **A search in a table selects what the filter selects from the shown rows.** Rows that are
filtered in memory must be shown ones to begin with: none of them is left out for being hidden. -/
theorem filterRows_of_shown (m : Model) (filter : Json) (rows : List Record) :
    match m.query filter with
    | .error e => m.find filter = .refused e ∧ m.filterRows filter rows = .error e
    | .ok q =>
      let issued := q.live m.config
      m.find filter = .issue (m.config.command (Sql.select m.config.table issued)) readRows ∧
      m.filterRows filter (rows.filter m.config.shows) =
        .ok (issued.apply m.config.dialect rows) := by
  unfold find filterRows
  cases m.query filter with
  | error e => exact ⟨rfl, rfl⟩
  | ok q =>
    refine ⟨congrArg read (Statement.select_eq m.config q), ?_⟩
    rw [q.apply_live]
    rfl

/-- A hidden row passes in memory, and no search finds it. -/
theorem filterRows_hidden :
    let m : Model :=
      ⟨{ Config.ofTable "users" (.ofList
          [⟨"id", .serial, false⟩, ⟨"name", .string, false⟩, ⟨"deleted_at", .timestamp, false⟩]) with
         deletedColumn := some "deleted_at" }, by rfl⟩
    let filter := Json.object [("name", .string "a")]
    let hidden : Record := [("name", .string "a"), ("deleted_at", .string "2024-01-31")]
    let shown : Record := [("name", .string "a"), ("deleted_at", .null)]
    ∃ q, m.query filter = .ok q ∧
      (q.live m.config).apply m.config.dialect [hidden, shown] = [shown] ∧
      m.filterRows filter [hidden, shown] = .ok [hidden, shown] ∧
      m.filterRows filter [hidden, shown] ≠
        .ok ((q.live m.config).apply m.config.dialect [hidden, shown]) := by
  refine ⟨_, rfl, by rfl, by rfl, fun h => ?_⟩
  have hlength := congrArg (Except.map List.length) h
  cases hlength

end Model

end SingleTable
