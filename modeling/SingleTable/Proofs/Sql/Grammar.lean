import SingleTable.Proofs.Model.Edge
import SingleTable.Proofs.Rows.Restoring
import SingleTable.Proofs.Sql.Selection

/-! # The grammar of queries

The form that MySQL asks of a query, in which an offset stands behind a limit and nowhere else.

* `SelectStatement`: a derivation from the grammar; `SelectStatement.lexemes` is what it derives.
* `SelectStatement.selection`: the selection that a derivation reads as.
* `Query.derives_iff`: which queries are derived, and how.
-/

namespace SingleTable
open Sql Sql.Fragment

namespace Sql

/-! ## Derivations -/

/-- A name that is its own text between quotes. -/
abbrev PlainName := {s : String // Identifier.IsWord s}

structure SelectStatement where
  table : PlainName
  condition : Option Disjunction
  order : List (PlainName × Direction)
  page : Option (Nat × Option Nat)

namespace SelectStatement

def conditionLexemes (φ : Disjunction) : List (Lexeme Param) := .keyword .where :: φ.lexemes

def termLexemes (t : PlainName × Direction) : List (Lexeme Param) :=
  [.quoted t.1.1.toList, .keyword (directionKeyword t.2)]

def orderLexemes (order : List (PlainName × Direction)) : List (Lexeme Param) :=
  if order.isEmpty then [] else .keyword .order :: .keyword .by :: listedLexemes termLexemes order

/-- An offset is part of a limit. -/
def pageLexemes (page : Nat × Option Nat) : List (Lexeme Param) :=
  [.keyword .limit, .number page.1] ++ page.2.elim [] fun k => [.keyword .offset, .number k]

/-- `SELECT * FROM table [WHERE condition] [ORDER BY terms] [LIMIT n [OFFSET k]];` -/
def lexemes (s : SelectStatement) : List (Lexeme Param) :=
  [.keyword .select, .symbol .star, .keyword .from, .quoted s.table.1.toList] ++
    s.condition.elim [] conditionLexemes ++ orderLexemes s.order ++
    s.page.elim [] pageLexemes ++ [.symbol .semicolon]

end SelectStatement

/-! ## No condition ends early -/

theorem Dated.continues_of_mem_lexemes {α : Type} {f : α → Lexeme Param}
    (h : ∀ a, (f a).continues = true) (x : Dated α) : ∀ y ∈ x.lexemes f, y.continues = true := by
  have hmarks : (Lexeme.keyword .date : Lexeme Param).continues = true ∧
      (Lexeme.symbol .open : Lexeme Param).continues = true ∧
      (Lexeme.symbol .close : Lexeme Param).continues = true := ⟨rfl, rfl, rfl⟩
  unfold lexemes
  split <;> simp [h, hmarks]

theorem Test.continues_of_mem_lexemes (t : Test) : ∀ x ∈ t.lexemes, x.continues = true := by
  have hcolumn : ∀ c : Dated String, ∀ x ∈ column c, x.continues = true :=
    Dated.continues_of_mem_lexemes fun _ => rfl
  have hbound : ∀ v : Dated Param, ∀ x ∈ bound v, x.continues = true :=
    Dated.continues_of_mem_lexemes fun _ => rfl
  have hnegation : ∀ b, ∀ x ∈ negation b, x.continues = true := by
    intro b
    cases b <;> simp [negation, Lexeme.continues]
  cases t with
  | constant b => simp [lexemes, Lexeme.continues]
  | compare op c v =>
    simp only [lexemes, List.forall_mem_append, List.forall_mem_cons]
    exact ⟨hcolumn c, rfl, hbound v⟩
  | like negated c v =>
    simp only [lexemes, List.forall_mem_append, List.forall_mem_cons]
    exact ⟨hcolumn c, hnegation negated, rfl, hbound v⟩
  | member c v vs =>
    have hothers : ∀ x ∈ others vs, x.continues = true := by
      intro x hx
      obtain ⟨w, -, hx⟩ := List.mem_flatMap.mp hx
      rcases List.mem_cons.mp hx with rfl | hx
      · rfl
      · exact hbound w x hx
    simp only [lexemes, List.forall_mem_append, List.forall_mem_cons]
    exact ⟨hcolumn c, rfl, rfl, hbound v, hothers, rfl, List.forall_mem_nil _⟩
  | missing negated c =>
    simp only [lexemes, List.forall_mem_append, List.forall_mem_cons]
    exact ⟨hcolumn c, rfl, hnegation negated, rfl, List.forall_mem_nil _⟩

mutual
theorem Factor.continues_of_mem_lexemes : ∀ f : Factor, ∀ x ∈ f.lexemes, x.continues = true
  | .test t => t.continues_of_mem_lexemes
  | .enclosed d => by
      rw [Factor.lexemes, List.forall_mem_cons, List.forall_mem_append, List.forall_mem_singleton]
      exact ⟨rfl, Disjunction.continues_of_mem_lexemes d, rfl⟩
theorem Conjunction.continues_of_mem_lexemes :
    ∀ c : Conjunction, ∀ x ∈ c.lexemes, x.continues = true
  | .one f => Factor.continues_of_mem_lexemes f
  | .and c f => by
      rw [Conjunction.lexemes, List.forall_mem_append, List.forall_mem_cons]
      exact ⟨Conjunction.continues_of_mem_lexemes c, rfl, Factor.continues_of_mem_lexemes f⟩
theorem Disjunction.continues_of_mem_lexemes :
    ∀ d : Disjunction, ∀ x ∈ d.lexemes, x.continues = true
  | .one c => Conjunction.continues_of_mem_lexemes c
  | .or d c => by
      rw [Disjunction.lexemes, List.forall_mem_append, List.forall_mem_cons]
      exact ⟨Disjunction.continues_of_mem_lexemes d, rfl, Conjunction.continues_of_mem_lexemes c⟩
end

/-! ## Derivations as selections -/

/-- The term of an order that a key in one part stands for. -/
def SortKey.term (k : SortKey) : OrderTerm := ⟨String.ofList k.column.flatten, k.direction⟩

theorem SortKey.term_sortKey {t : OrderTerm} (h : Identifier.IsWord t.key) : t.sortKey.term = t := by
  rw [OrderTerm.sortKey, Identifier.segments_of_isWord h, term, List.flatten_singleton,
    String.ofList_toList]

namespace SelectStatement

def term (t : PlainName × Direction) : OrderTerm := ⟨t.1.1, t.2⟩

def sortKey (t : PlainName × Direction) : SortKey := ⟨[t.1.1.toList], t.2⟩

theorem term_sortKey (t : PlainName × Direction) : (sortKey t).term = term t := by
  rw [sortKey, SortKey.term, List.flatten_singleton, String.ofList_toList, term]

def selection (s : SelectStatement) : Selection where
  wanted := .rows
  table := [s.table.1.toList]
  condition := s.condition.map Disjunction.lexemes
  order := s.order.map sortKey
  limit := s.page.map (·.1)
  offset := s.page.bind (·.2)

theorem isFilled_selection (s : SelectStatement) : s.selection.IsFilled := by
  refine ⟨List.cons_ne_nil _ _, ?_, ?_⟩
  · intro xs hxs
    obtain ⟨φ, -, rfl⟩ := Option.map_eq_some_iff.mp hxs
    exact φ.continues_of_mem_lexemes
  · intro key hkey
    obtain ⟨t, -, rfl⟩ := List.mem_map.mp hkey
    exact List.cons_ne_nil _ _

theorem lexemes_selection (s : SelectStatement) : s.selection.lexemes = s.lexemes := by
  obtain ⟨table, condition, order, page⟩ := s
  have htable := Config.segmentsLexemes_of_isWord table.2
  have hterm : ∀ t : PlainName × Direction, (sortKey t).lexemes = termLexemes t := by
    intro t
    rw [SortKey.lexemes, sortKey, Config.segmentsLexemes_of_isWord t.1.2]
    rfl
  have horder : Sql.orderLexemes (order.map sortKey) = orderLexemes order := by
    cases order with
    | nil => rfl
    | cons t order =>
      simp [Sql.orderLexemes, orderLexemes, listedLexemes, List.flatMap_map, hterm]
  have hcondition : conditionLexemes? (condition.map Disjunction.lexemes) =
      condition.elim [] conditionLexemes := by cases condition <;> rfl
  have hpage : Sql.pageLexemes (page.map (·.1)) (page.bind (·.2)) =
      page.elim [] pageLexemes ++ [.symbol .semicolon] := by
    rcases page with _ | ⟨n, _ | k⟩ <;> rfl
  simp only [Selection.lexemes, Selection.tailLexemes, selection, htable, hcondition, horder, hpage,
    lexemes]
  simp [Wanted.lexemes]

/-- What is derived is read as its selection. -/
theorem read?_lexemes (s : SelectStatement) : Selection.read? s.lexemes = some s.selection := by
  rw [← lexemes_selection]
  exact Selection.read?_lexemes s.isFilled_selection

end SelectStatement

/-! ## Filters as conditions -/

/-- The condition that a filter stands for. -/
def disjunction? : List Node → Option Disjunction
  | [] => none
  | n :: ns => some (Node.disjunction (.one (.one n.factor)) ns)

theorem conditionOf_eq {filter : List Node} (h : ∀ n ∈ filter, n.All Leaf.IsPlain) :
    conditionOf filter = (disjunction? filter).map Disjunction.lexemes := by
  cases filter with
  | nil => rfl
  | cons n ns =>
    rw [disjunction?, Option.map_some, ← Node.lexemes_condition h]
    rfl

end Sql

/-! ## Queries of a configuration -/

namespace Config

variable {c : Config} {q : Query}

/-- All names in the statement of a query are words. -/
structure IsPlainQuery (c : Config) (q : Query) : Prop where
  table : Identifier.IsWord c.table
  filter : ∀ n ∈ c.liveFilter q.filter, n.All Leaf.IsPlain
  order : ∀ t ∈ q.order, Identifier.IsWord t.key

theorem isPlainQuery_of_read (htable : Identifier.IsWord c.table)
    (hnames : ∀ name ∈ c.columns.names, Identifier.IsWord name)
    (hdeleted : ∀ deleted ∈ c.softDeleteColumn?, Identifier.IsWord deleted) {input : Json}
    (hq : Query.read c.columns input = .ok q) : c.IsPlainQuery q := by
  refine ⟨htable, ?_, fun t ht => hnames t.key (Query.key_of_read hq t ht)⟩
  refine all_liveFilter (fun deleted h => Leaf.isPlain_isNull (hdeleted deleted h) .and) fun n hn => ?_
  refine (Filter.all_of_read (Query.filter_of_read hq) n hn).mono fun l hl => ?_
  exact ⟨hnames l.key hl.1, hl.isSettled⟩

/-- The statement of a query reads as the selection of every derivation that it has. -/
theorem selection_of_lexemes {s : SelectStatement}
    (h : (c.command (c.select q)).lexemes? c.dialect = some s.lexemes) :
    s.selection = Query.selection { q with filter := c.liveFilter q.filter } c.table := by
  have hread := c.selection_select q
  rw [Selection.ofCommand?, h, Option.bind_some, SelectStatement.read?_lexemes] at hread
  exact Option.some.inj hread

/-- A derivation with the table, the condition, the order and the page of a query. -/
structure Derives (c : Config) (q : Query) (s : SelectStatement) : Prop where
  table : s.table.1 = c.table
  condition : s.condition = disjunction? (c.liveFilter q.filter)
  order : s.order.map SelectStatement.term = q.order
  page : s.page = q.limit.map (·, q.offset)

theorem derives_of_lexemes (hplain : c.IsPlainQuery q) {s : SelectStatement}
    (h : (c.command (c.select q)).lexemes? c.dialect = some s.lexemes) : c.Derives q s := by
  have hselection := selection_of_lexemes h
  refine ⟨?_, ?_, ?_, ?_⟩
  · have htable : [s.table.1.toList] = Identifier.segments c.table :=
      congrArg Selection.table hselection
    rw [Identifier.segments_of_isWord hplain.table] at htable
    exact String.toList_inj.mp (List.singleton_inj.mp htable)
  · have hcondition : s.condition.map Disjunction.lexemes = conditionOf (c.liveFilter q.filter) :=
      congrArg Selection.condition hselection
    rw [conditionOf_eq hplain.filter] at hcondition
    exact Option.map_injective (fun _ _ => Disjunction.lexemes_injective) hcondition
  · have hkeys : s.order.map SelectStatement.sortKey = q.order.map OrderTerm.sortKey :=
      congrArg Selection.order hselection
    have hterms := congrArg (List.map SortKey.term) hkeys
    rw [List.map_map, List.map_map] at hterms
    have hleft : s.order.map (SortKey.term ∘ SelectStatement.sortKey) =
        s.order.map SelectStatement.term :=
      List.map_congr_left fun t _ => SelectStatement.term_sortKey t
    have hright : q.order.map (SortKey.term ∘ OrderTerm.sortKey) = q.order :=
      (List.map_congr_left fun t ht => SortKey.term_sortKey (hplain.order t ht)).trans
        (List.map_id _)
    rw [← hleft, hterms, hright]
  · have hlimit : s.page.map (·.1) = q.limit := congrArg Selection.limit hselection
    have hoffset : s.page.bind (·.2) = q.offset := congrArg Selection.offset hselection
    rw [← hlimit, ← hoffset]
    cases s.page <;> rfl

/-- An offset that no limit precedes is not derived. -/
theorem offset_of_lexemes {s : SelectStatement}
    (h : (c.command (c.select q)).lexemes? c.dialect = some s.lexemes) (hlimit : q.limit = none) :
    q.offset = none := by
  have hselection := selection_of_lexemes h
  have hpage : s.page.map (·.1) = q.limit := congrArg Selection.limit hselection
  have hoffset : s.page.bind (·.2) = q.offset := congrArg Selection.offset hselection
  rw [hlimit, Option.map_eq_none_iff] at hpage
  rw [← hoffset, hpage]
  rfl

theorem exists_derivation (hplain : c.IsPlainQuery q) (hpage : q.limit = none → q.offset = none) :
    ∃ s : SelectStatement, (c.command (c.select q)).lexemes? c.dialect = some s.lexemes := by
  let order := q.order.pmap (fun t h => ((⟨t.key, h⟩ : PlainName), t.direction)) hplain.order
  let s : SelectStatement :=
    ⟨⟨c.table, hplain.table⟩, disjunction? (c.liveFilter q.filter), order,
      q.limit.map (·, q.offset)⟩
  have htable : Identifier.segments c.table = [c.table.toList] :=
    Identifier.segments_of_isWord hplain.table
  have horder : order.map SelectStatement.sortKey = q.order.map OrderTerm.sortKey := by
    rw [List.map_pmap, ← List.pmap_eq_map hplain.order]
    exact List.pmap_congr_left _ fun t _ h _ => by
      rw [OrderTerm.sortKey, Identifier.segments_of_isWord h]
      rfl
  have hlimit : (q.limit.map (·, q.offset)).map (·.1) = q.limit := by cases q.limit <;> rfl
  have hoffset : (q.limit.map (·, q.offset)).bind (·.2) = q.offset := by
    cases hn : q.limit with
    | none => exact (hpage hn).symm
    | some n => rfl
  have hselection : s.selection =
      Query.selection { q with filter := c.liveFilter q.filter } c.table := by
    simp only [s, SelectStatement.selection, Query.selection, htable, horder, hlimit, hoffset,
      conditionOf_eq hplain.filter]
  refine ⟨s, ?_⟩
  rw [lexemes?_select, ← hselection, SelectStatement.lexemes_selection]

/-- **The grammar derives every query but those with an offset and no limit.** Nothing that is
derived has another table, condition, order or page than its query. -/
theorem select_derived_iff (c : Config) (htable : Identifier.IsWord c.table)
    (hnames : ∀ name ∈ c.columns.names, Identifier.IsWord name)
    (hdeleted : ∀ deleted ∈ c.softDeleteColumn?, Identifier.IsWord deleted) {input : Json}
    {q : Query} (hq : Query.read c.columns input = .ok q) :
    ∃ command, c.statement (.select q) = .ok command ∧
      ((∃ s : SelectStatement, command.lexemes? c.dialect = some s.lexemes) ↔
        (q.limit = none → q.offset = none)) ∧
      ∀ s : SelectStatement, command.lexemes? c.dialect = some s.lexemes → c.Derives q s := by
  have hplain := isPlainQuery_of_read htable hnames hdeleted hq
  refine ⟨_, c.statement_eq_map (.select q), ⟨?_, exists_derivation hplain⟩, fun s => derives_of_lexemes hplain⟩
  rintro ⟨s, hs⟩
  exact offset_of_lexemes hs

theorem select_derived_iff_users :
    let c := { Config.ofTable "users" (.ofList
      [⟨"id", .serial, false⟩, ⟨"name", .string, false⟩, ⟨"deleted_at", .timestamp, false⟩]) with
      dialect := .mysql, deletedColumn := some "deleted_at" }
    let ids : Record :=
      [("key", .string "id"), ("value", .array [.number (.int 1), .number (.int 2)])]
    let named : Record :=
      [("key", .string "name"), ("condition", .string "like"), ("value", .string "a*")]
    let group : Record := [("chain", .string "or"), ("where", .object named)]
    let input := Json.object
      [("where", .array [.object ids, .object group]),
       ("order", .object [("key", .string "name"), ("direction", .string "desc")]),
       ("limit", .string "5"), ("offset", .number (.int 2))]
    (∀ name ∈ c.columns.names, Identifier.IsWord name) ∧
      (∀ deleted ∈ c.softDeleteColumn?, Identifier.IsWord deleted) ∧
      ∃ q command s, Query.read c.columns input = .ok q ∧
        c.statement (.select q) = .ok command ∧
        command.sql = "SELECT * FROM `users` WHERE (`id` IN (?, ?) OR (`name` LIKE ?)) AND " ++
          "`deleted_at` IS NULL ORDER BY `name` DESC LIMIT 5 OFFSET 2;" ∧
        command.lexemes? .mysql = some (SelectStatement.lexemes s) ∧ s.page = some (5, some 2) := by
  intro c ids named group input
  let q : Query :=
    { filter := [
        .leaf ⟨"id", .isIn, .many [.raw (.number (.int 1)), .raw (.number (.int 2))], .and, false⟩,
        .group .or [.leaf ⟨"name", .like, .one (.raw (.string "a*")), .and, false⟩]],
      order := [⟨"name", .descending⟩], limit := some 5, offset := some 2 }
  have hids : Filter.readEntry c.columns ids = .ok q.filter[0] := by
    rw [Filter.readEntry_leaf c.columns rfl]
    rfl
  have hnamed : Filter.readEntry c.columns named =
      .ok (.leaf ⟨"name", .like, .one (.raw (.string "a*")), .and, false⟩) := by
    rw [Filter.readEntry_leaf c.columns rfl]
    rfl
  have hgroup : Filter.readEntry c.columns group = .ok q.filter[1] := by
    rw [Filter.readEntry_group c.columns rfl, Filter.readEntries, hnamed]
    rfl
  have hfilter : Filter.read c.columns input = .ok q.filter := by
    change Filter.readEntries c.columns (.array _) = _
    rw [Filter.readEntries, Filter.readItems, hids, Filter.readItems, hgroup, Filter.readItems]
    rfl
  have hlimit : (input.field? "limit").bind Query.positiveCount = some 5 := by decide +kernel
  have hoffset : (input.field? "offset").bind Query.positiveCount = some 2 := by decide +kernel
  have hq : Query.read c.columns input = .ok q := by
    rw [Query.read_structured rfl, hfilter, hlimit, hoffset]
    rfl
  have hnames : ∀ name ∈ c.columns.names, Identifier.IsWord name := by decide +kernel
  have hdeleted : ∀ deleted ∈ c.softDeleteColumn?, Identifier.IsWord deleted := by
    intro deleted h
    obtain rfl : "deleted_at" = deleted := Option.some.inj h
    decide +kernel
  obtain ⟨command, hcommand, hiff, hderives⟩ :=
    select_derived_iff c (by decide +kernel) hnames hdeleted hq
  obtain ⟨s, hs⟩ := hiff.mpr nofun
  obtain rfl := Except.ok.inj hcommand
  exact ⟨hnames, hdeleted, q, _, s, hq, hcommand, by decide +kernel, hs, (hderives s hs).page⟩

/-- The filter asks for the rows behind the fifth, and the statement is none of the grammar. -/
theorem select_underived_offset :
    let c := { Config.ofTable "users" (.ofList [⟨"id", .serial, false⟩]) with dialect := .mysql }
    let input := Json.object [("where", .array []), ("offset", .number (.int 5))]
    ∃ q command, Query.read c.columns input = .ok q ∧ c.statement (.select q) = .ok command ∧
      command.sql = "SELECT * FROM `users` OFFSET 5;" ∧
      ¬ ∃ s : SelectStatement, command.lexemes? .mysql = some s.lexemes := by
  intro c input
  have hoffset : (input.field? "offset").bind Query.positiveCount = some 5 := by decide +kernel
  have hq : Query.read c.columns input = .ok { filter := [], offset := some 5 } := by
    rw [Query.read_structured rfl, Filter.read_of_where_nil rfl, hoffset]
    rfl
  refine ⟨_, _, hq, c.statement_eq_map (.select _), by decide +kernel, ?_⟩
  rintro ⟨s, hs⟩
  cases offset_of_lexemes (c := c) hs rfl

end Config

end SingleTable
