import SingleTable.Proofs.Query.Normal
import SingleTable.Proofs.Rows.Hidden
import SingleTable.Proofs.Rows.Sorting

/-! # The first and the last row

The oldest and the newest row are searched for by the query that a caller gives, with an order and a
limit of their own. The offset of the caller's query stays, and skips that many rows of the order.

* `Query.edge`: the query that is written down.
* `Query.apply_edge`: the row that it selects, counted from the offset.
* `Model.edge_exact`: what the two searches ask for, and what they find.
-/

namespace SingleTable

/-! ## The query -/

/-- The query for the first shown row in the order of a term. -/
def Query.edge (q : Query) (c : Config) (t : OrderTerm) : Query :=
  ((q.withOrder t).withLimit 1).live c

theorem Rows.page_one (offset : Option Nat) (rows : List Record) :
    page offset (some 1) rows = rows[offset.getD 0]?.toList := by
  change (rows.drop (offset.getD 0)).take 1 = _
  rw [List.take_one, List.head?_drop]

theorem Query.apply_edge (q : Query) (c : Config) (t : OrderTerm) (d : Dialect)
    (rows : List Record) :
    (q.edge c t).apply d rows =
      (Rows.sort d [t] (Rows.filter q.filter (rows.filter c.shows)))[q.offset.getD 0]?.toList := by
  rw [edge, apply_live]
  exact Rows.page_one q.offset _

theorem Rows.sort_eq_nil_iff {d : Dialect} {order : List OrderTerm} {rows : List Record} :
    sort d order rows = [] ↔ rows = [] := by
  rw [← List.length_eq_zero_iff, (sort_perm d order rows).length_eq, List.length_eq_zero_iff]

/-- An empty list of conditions asks for nothing. -/
theorem Filter.read_of_where_nil {c : Catalog} {fields : Record}
    (h : fields.get? "where" = some (.array [])) : read c (.object fields) = .ok [] := by
  rw [read, h]
  dsimp only
  rw [readEntries, readItems]

/-! ## The two searches -/

namespace Model

theorem edge_eq {m : Model} {key : String} (hkey : m.config.createdColumn = some key)
    (filter : Option Json) (direction : Direction) :
    m.edge filter direction =
      match m.optionalQuery filter with
      | .error e => .refused e
      | .ok q =>
        .issue (m.config.command (Sql.select m.config.table (q.edge m.config ⟨key, direction⟩)))
          fun reply => (readRows reply).map List.head? := by
  unfold edge edgeQuery
  rw [hkey]
  cases m.optionalQuery filter with
  | error e => rfl
  | ok q =>
    exact congrArg (fun command => (read command).map List.head?)
      (Statement.select_eq m.config ((q.withOrder ⟨key, direction⟩).withLimit 1))

/-- **The first and the last row.** Both are searched for by one query, in the order of the creation
time and with a limit of one, whatever order and limit the caller's query has. It selects the row at
the offset of the caller's query among the shown rows that satisfy its filter. Without an offset this
is the first of them, before which no other one stands, and none is found only if there is none. -/
theorem edge_exact {m : Model} {key : String} (hkey : m.config.createdColumn = some key)
    (filter : Option Json) (direction : Direction) (rows : List Record) :
    let operation := match direction with
      | .ascending => m.first filter
      | .descending => m.last filter
    match m.optionalQuery filter with
    | .error e => operation = .refused e
    | .ok q =>
      let t : OrderTerm := ⟨key, direction⟩
      let matching := Rows.filter q.filter (rows.filter m.config.shows)
      let sorted := Rows.sort m.config.dialect [t] matching
      let found := (q.edge m.config t).apply m.config.dialect rows
      operation =
        .issue (m.config.command (Sql.select m.config.table (q.edge m.config t)))
          (fun reply => (readRows reply).map List.head?) ∧
      found = sorted[q.offset.getD 0]?.toList ∧
      (q.offset = none → found = sorted.head?.toList ∧ (found = [] ↔ matching = [])) ∧
      (Rows.IsSortable key matching → ∀ r, sorted.head? = some r →
        ∀ s ∈ matching, ¬ t.Precedes m.config.dialect s r) := by
  intro operation
  have hoperation : operation = m.edge filter direction := by
    cases direction <;> rfl
  rw [hoperation, edge_eq hkey]
  cases m.optionalQuery filter with
  | error e => rfl
  | ok q =>
    dsimp -zeta only
    intro t matching sorted found
    have hfound : found = sorted[q.offset.getD 0]?.toList := q.apply_edge m.config t _ rows
    refine ⟨rfl, hfound, fun hoffset => ?_, fun hsortable r hr s hs hprecedes => ?_⟩
    · have hhead : found = sorted.head?.toList := by
        rw [hfound, hoffset, Option.getD_none, List.head?_eq_getElem?]
      refine ⟨hhead, ?_⟩
      rw [hhead, Option.toList_eq_nil_iff, List.head?_eq_none_iff]
      exact Rows.sort_eq_nil_iff
    · have hterm : ∀ u ∈ [t], Rows.IsSortable u.key matching := by
        intro u hu
        rw [List.mem_singleton.mp hu]
        exact hsortable
      exact Rows.not_before_head hterm hr hs (.now hprecedes)

theorem edge_exact_oldest :
    let m : Model :=
      ⟨{ Config.ofTable "users" (.ofList
          [⟨"id", .serial, false⟩, ⟨"at", .timestamp, false⟩, ⟨"deleted_at", .timestamp, false⟩]) with
         createdColumn := some "at", deletedColumn := some "deleted_at" }, by rfl⟩
    let filter := Json.object [("where", .array []), ("order", .string "id"), ("limit", .string "5")]
    let hidden : Record := [("at", .string "2024-01-30"), ("deleted_at", .string "2024-01-31")]
    let shown : Record := [("at", .string "2024-01-31")]
    m.config.createdColumn = some "at" ∧
      ∃ q, m.optionalQuery (some filter) = .ok q ∧ q.offset = none ∧
        (q.edge m.config ⟨"at", .ascending⟩).apply m.config.dialect [hidden, shown] = [shown] := by
  intro m filter hidden shown
  have hcreated : m.config.createdColumn = some "at" := rfl
  have hlimit : (filter.field? "limit").bind Query.positiveCount = some 5 := by decide +kernel
  have hq : m.optionalQuery (some filter) =
      .ok { filter := [], order := [⟨"id", .ascending⟩], limit := some 5 } := by
    change Query.read m.config.columns filter = _
    rw [Query.read_structured rfl, Filter.read_of_where_nil rfl, hlimit]
    rfl
  have hedge := edge_exact hcreated (some filter) .ascending [hidden, shown]
  rw [hq] at hedge
  obtain ⟨-, -, hfound, -⟩ := hedge
  refine ⟨hcreated, _, hq, rfl, (hfound rfl).1.trans ?_⟩
  have hsorted : Rows.sort m.config.dialect [⟨"at", .ascending⟩] [shown] = [shown] :=
    List.mergeSort_singleton shown
  exact congrArg (·.head?.toList) hsorted

/-- The offset of a filter skips the only row that there is. -/
theorem edge_offset :
    let m : Model :=
      ⟨{ Config.ofTable "users" (.ofList [⟨"id", .serial, false⟩, ⟨"at", .timestamp, false⟩]) with
         createdColumn := some "at" }, by rfl⟩
    let filter := Json.object [("where", .array []), ("offset", .number (.int 1))]
    let row : Record := [("id", .number (.int 1)), ("at", .string "2024-01-31")]
    ∃ q, m.optionalQuery (some filter) = .ok q ∧
      Rows.filter q.filter ([row].filter m.config.shows) = [row] ∧
      (q.edge m.config ⟨"at", .ascending⟩).apply m.config.dialect [row] = [] := by
  intro m filter row
  have hoffset : (filter.field? "offset").bind Query.positiveCount = some 1 := by decide +kernel
  have hq : m.optionalQuery (some filter) = .ok { filter := [], offset := some 1 } := by
    change Query.read m.config.columns filter = _
    rw [Query.read_structured rfl, Filter.read_of_where_nil rfl, hoffset]
    rfl
  refine ⟨_, hq, rfl, ?_⟩
  have hsorted : Rows.sort m.config.dialect [⟨"at", .ascending⟩] [row] = [row] :=
    List.mergeSort_singleton row
  rw [Query.apply_edge]
  exact congrArg (fun rows : List Record => rows[1]?.toList) hsorted

end Model

end SingleTable
