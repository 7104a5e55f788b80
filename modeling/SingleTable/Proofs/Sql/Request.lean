import SingleTable.Proofs.Sql.Building
import SingleTable.Proofs.Sql.Writing

/-! # Requests for statements

* `Config.Request`: a statement that is asked for, with all its arguments; `Config.statement` is the
  command that a configuration issues for it, and `Config.fragment` what it is made of.
* `isClause_condition`, `isClause_assignment` and the like: the parts of statements are clauses.
* `Config.fragment_eq_ended`: every statement is one clause and a semicolon.
-/

namespace SingleTable
open Sql Sql.Fragment

/-! ## Conditions are clauses -/

theorem isClause_dated (b : Bool) {f : Fragment} (hf : IsClause f) : IsClause (dated b f) := by
  unfold dated
  split
  · exact .call .date (by simpa using hf)
  · exact hf

theorem isClause_truth (b : Bool) : IsClause (truth b) := by
  apply IsClause.spaced
  intro f hf
  simp only [List.mem_cons, List.not_mem_nil, or_false] at hf
  rcases hf with rfl | rfl | rfl <;> exact .singleton nofun

namespace Leaf

theorem isClause_column (l : Leaf) : IsClause l.column := isClause_dated _ (.ofName _)

theorem isClause_bound (l : Leaf) (p : Param) : IsClause (l.bound p) := isClause_dated _ (.ofParam p)

theorem isClause_comparison (l : Leaf) (c : Condition) {f : Fragment} (hf : IsClause f) :
    IsClause (Fragment.spaced [l.column, [.operator c], f]) := by
  apply IsClause.spaced
  intro g hg
  simp only [List.mem_cons, List.not_mem_nil, or_false] at hg
  rcases hg with rfl | rfl | rfl
  · exact l.isClause_column
  · exact .singleton nofun
  · exact hf

theorem isClause_sql (l : Leaf) : IsClause l.sql := by
  have htest : IsClause (Fragment.spaced [l.column, [.operator l.condition]]) := by
    apply IsClause.spaced
    intro g hg
    simp only [List.mem_cons, List.not_mem_nil, or_false] at hg
    rcases hg with rfl | rfl
    · exact l.isClause_column
    · exact .singleton nofun
  unfold sql
  split
  · exact htest
  · exact htest
  · exact isClause_truth false
  · refine l.isClause_comparison _ (IsClause.enclosed (.listed_map ?_ _))
    exact fun x => l.isClause_bound x.toParam
  · exact l.isClause_comparison _ (l.isClause_bound _)
  · exact l.isClause_comparison _ (l.isClause_bound _)
  · exact l.isClause_comparison _ (l.isClause_bound _)
  · exact isClause_truth false

end Leaf

mutual
theorem Node.isClause_sql : ∀ n : Node, IsClause n.sql
  | .leaf l => by
      rw [Node.sql]
      exact l.isClause_sql
  | .group _ [] => by
      rw [Node.sql]
      exact isClause_truth true
  | .group _ (n :: rest) => by
      rw [Node.sql]
      exact IsClause.enclosed (Node.isClause_append_sqlRest rest n.isClause_sql)
theorem Node.isClause_append_sqlRest : ∀ (rest : List Node) {f : Fragment},
    IsClause f → IsClause (f ++ Node.sqlRest rest)
  | [], f, hf => by
      rw [Node.sqlRest, List.append_nil]
      exact hf
  | n :: rest, f, hf => by
      have hrest := Node.isClause_append_sqlRest rest n.isClause_sql
      rw [Node.sqlRest]
      refine hf.append_mark (IsClause.cons_mark ?_ (by decide))
      exact (IsClause.singleton (t := .chain n.chain) nofun).append_mark
        (hrest.cons_mark (by decide))
end

theorem isClause_condition {filter : List Node} : ∀ f ∈ condition? filter, IsClause f := by
  intro f hf
  cases filter with
  | nil => cases hf
  | cons n rest =>
    obtain rfl := Option.some.inj hf
    exact Node.isClause_append_sqlRest rest n.isClause_sql

theorem isClause_whereClause (filter : List Node) : ∀ f ∈ whereClause filter, IsClause f := by
  intro f hf
  obtain ⟨g, hg, rfl⟩ := Option.map_eq_some_iff.mp hf
  exact .spaced (by simpa using ⟨IsClause.ofWord .where, isClause_condition g hg⟩)

/-! ## The other parts -/

theorem isClause_order (order : List OrderTerm) : ∀ f ∈ order? order, IsClause f := by
  intro f hf
  unfold order? at hf
  split at hf
  · cases hf
  · obtain rfl := Option.some.inj hf
    have hterm : ∀ t : OrderTerm, IsClause (orderTerm t) := by
      intro t
      exact .spaced (by simpa using ⟨IsClause.ofName t.key, IsClause.singleton nofun⟩)
    exact .spaced (by simpa using ⟨IsClause.ofWord .orderBy, IsClause.listed_map hterm order⟩)

theorem isClause_counted (w : Word) (n : Nat) : IsClause (counted w n) :=
  .spaced (by simpa using ⟨IsClause.ofWord w, IsClause.singleton nofun⟩)

theorem isClause_names (names : List String) :
    IsClause (Fragment.listed (names.map Fragment.ofName)) := .listed_map .ofName names

theorem isClause_returningClause (d : Dialect) (columns : List String) :
    ∀ f ∈ Config.returningClause d columns, IsClause f := by
  intro f hf
  unfold Config.returningClause at hf
  split at hf
  · cases hf
  · obtain rfl := Option.some.inj hf
    exact .spaced (by simpa using ⟨IsClause.ofWord .returning, isClause_names columns⟩)

theorem isClause_matching (column : String) (p : Param) : IsClause (Config.matching column p) :=
  .spaced (by simpa using ⟨IsClause.ofName column, IsClause.singleton nofun, IsClause.ofParam p⟩)

theorem isClause_catalogBound (c : Catalog) (name : String) (j : Json) :
    IsClause (c.bound name j) := by
  unfold Catalog.bound
  split
  · exact .call .point (by simpa using ⟨IsClause.ofParam _, IsClause.ofParam _⟩)
  · exact .ofParam _
  · exact .ofParam _

theorem isClause_tuple (catalog : Catalog) (columns : List String) (row : Record) :
    IsClause (Config.tuple catalog columns row) := by
  refine IsClause.enclosed (.listed_map (fun name => ?_) columns)
  unfold Config.cell
  split
  · exact isClause_catalogBound catalog _ _
  · exact .ofParam _

theorem isClause_assignment (catalog : Catalog) (field : String × Json) :
    IsClause (Config.assignment catalog field) :=
  .spaced (by
    simpa using ⟨IsClause.ofName field.1, IsClause.singleton nofun,
      isClause_catalogBound catalog field.1 field.2⟩)

theorem isClause_assignments (catalog : Catalog) (data : Record) :
    IsClause (Fragment.listed (data.map (Config.assignment catalog))) :=
  .listed_map (isClause_assignment catalog) data

/-! ## Requests -/

namespace Config

/-- A statement that is asked for. `query` is a query as it stands, hidden rows included. -/
inductive Request
  | query (q : Query)
  | selectById (id : Param)
  | select (q : Query)
  | count (filter : List Node)
  | insert (catalog : Catalog) (rows : List Record) (returning : List String)
  | update (catalog : Catalog) (data : Record) (filter : List Node) (returning : List String)
  | hardDelete (id : Param)
  | setDeleted (deleted : String) (deletion id : Param)

def fragment (c : Config) : Request → Except Refusal Fragment
  | .query q => .ok (Sql.select c.table q)
  | .selectById id => .ok (c.selectById id)
  | .select q => .ok (c.select q)
  | .count filter => .ok (c.count filter)
  | .insert catalog rows returning => c.insert catalog rows returning
  | .update catalog data filter returning => c.update catalog data filter returning
  | .hardDelete id => .ok (c.hardDelete id)
  | .setDeleted deleted deletion id => .ok (c.setDeleted deleted deletion id)

def statement (c : Config) : Request → Except Refusal Command
  | .query q => .ok (Statement.query c.dialect c.table q)
  | .selectById id => .ok (Statement.selectById c id)
  | .select q => .ok (Statement.select c q)
  | .count filter => .ok (Statement.count c filter)
  | .insert catalog rows returning => Statement.insert c catalog rows returning
  | .update catalog data filter returning => Statement.update c catalog data filter returning
  | .hardDelete id => .ok (Statement.hardDelete c id)
  | .setDeleted deleted deletion id => .ok (Statement.setDeleted c deleted deletion id)

theorem statement_eq_map (c : Config) (r : Request) :
    c.statement r = (c.fragment r).map c.command := by
  cases r with
  | query q => exact congrArg Except.ok (Statement.query_eq c.dialect c.table q)
  | selectById id => exact congrArg Except.ok (Statement.selectById_eq c id)
  | select q => exact congrArg Except.ok (Statement.select_eq c q)
  | count filter => exact congrArg Except.ok (Statement.count_eq c filter)
  | insert catalog rows returning => exact Statement.insert_eq c catalog rows returning
  | update catalog data filter returning => exact Statement.update_eq c catalog data filter returning
  | hardDelete id => exact congrArg Except.ok (Statement.hardDelete_eq c id)
  | setDeleted deleted deletion id =>
    exact congrArg Except.ok (Statement.setDeleted_eq c deleted deletion id)

theorem isClause_star : IsClause [.mark .star] := by
  refine .singleton fun h => ?_
  cases h

theorem isClause_select (table : String) (q : Query) :
    ∃ f, IsClause f ∧ Sql.select table q = ended f := by
  refine ⟨_, ?_, rfl⟩
  rw [Sql.tail, ← List.append_assoc, ← List.append_assoc]
  refine (((IsClause.append_tail (.spaced ?_) (isClause_whereClause q.filter)).append_tail
    (isClause_order q.order)).append_tail ?_).append_tail ?_
  · simpa using ⟨IsClause.ofWord .select, isClause_star, IsClause.ofWord .source,
      IsClause.ofName table⟩
  · intro f hf
    obtain ⟨n, -, rfl⟩ := Option.map_eq_some_iff.mp hf
    exact isClause_counted .limit n
  · intro f hf
    obtain ⟨n, -, rfl⟩ := Option.map_eq_some_iff.mp hf
    exact isClause_counted .offset n

theorem isClause_selectById (c : Config) (id : Param) :
    ∃ f, IsClause f ∧ c.selectById id = ended f := by
  refine ⟨_, ?_, rfl⟩
  refine (IsClause.append_tail (.spaced ?_) ?_).append_tail ?_
  · simpa using ⟨IsClause.ofWord .select, isClause_star, IsClause.ofWord .source,
      IsClause.ofName c.table, IsClause.ofWord .where, isClause_matching c.idColumn id⟩
  · intro f hf
    obtain ⟨deleted, -, rfl⟩ := Option.map_eq_some_iff.mp hf
    exact .spaced (by
      simpa using ⟨IsClause.singleton nofun, IsClause.ofName deleted, IsClause.singleton nofun⟩)
  · intro f hf
    obtain rfl := Option.some.inj hf
    exact isClause_counted .limit 1

theorem isClause_count (c : Config) (filter : List Node) :
    ∃ f, IsClause f ∧ c.count filter = ended f := by
  refine ⟨_, ?_, rfl⟩
  refine IsClause.append_tail (.spaced ?_) (isClause_whereClause _)
  have hstar : IsClause (Fragment.call .count [[.mark .star]]) :=
    .call .count (by simpa using isClause_star)
  simpa using ⟨IsClause.ofWord .select, hstar, IsClause.ofWord .named, IsClause.ofName "count",
    IsClause.ofWord .source, IsClause.ofName c.table⟩

theorem isClause_insert {c : Config} {catalog : Catalog} {rows : List Record}
    {returning : List String} {f : Fragment} (h : c.insert catalog rows returning = .ok f) :
    ∃ g, IsClause g ∧ f = ended g := by
  unfold insert at h
  split at h
  · cases h
  · obtain rfl := Except.ok.inj h
    refine ⟨_, ?_, rfl⟩
    refine IsClause.append_tail (.spaced ?_) (isClause_returningClause _ _)
    have hrows : ∀ columns, IsClause (Fragment.listed (rows.map (tuple catalog columns))) :=
      fun columns => .listed_map (isClause_tuple catalog columns) rows
    simpa using ⟨IsClause.ofWord .insertInto, IsClause.ofName c.table,
      (isClause_names _).enclosed, IsClause.ofWord .values, hrows _⟩

theorem isClause_update {c : Config} {catalog : Catalog} {data : Record} {filter : List Node}
    {returning : List String} {f : Fragment}
    (h : c.update catalog data filter returning = .ok f) : ∃ g, IsClause g ∧ f = ended g := by
  unfold update at h
  split at h
  · cases h
  · obtain rfl := Except.ok.inj h
    refine ⟨_, ?_, rfl⟩
    refine ((IsClause.append_tail (.spaced ?_) (isClause_whereClause _)).append_tail
      (isClause_returningClause _ _))
    simpa using ⟨IsClause.ofWord .update, IsClause.ofName c.table, IsClause.ofWord .assign,
      isClause_assignments catalog data⟩

theorem isClause_hardDelete (c : Config) (id : Param) :
    ∃ f, IsClause f ∧ c.hardDelete id = ended f := by
  refine ⟨_, .spaced ?_, rfl⟩
  simpa using ⟨IsClause.ofWord .deleteFrom, IsClause.ofName c.table, IsClause.ofWord .where,
    isClause_matching c.idColumn id⟩

theorem isClause_setDeleted (c : Config) (deleted : String) (deletion id : Param) :
    ∃ f, IsClause f ∧ c.setDeleted deleted deletion id = ended f := by
  refine ⟨_, .spaced ?_, rfl⟩
  simpa using ⟨IsClause.ofWord .update, IsClause.ofName c.table, IsClause.ofWord .assign,
    isClause_matching deleted deletion, IsClause.ofWord .where, isClause_matching c.idColumn id⟩

/-- A statement is one clause with a semicolon behind it. -/
theorem fragment_eq_ended {c : Config} {r : Request} {f : Fragment} (h : c.fragment r = .ok f) :
    ∃ g, IsClause g ∧ f = ended g := by
  cases r with
  | query q =>
    obtain rfl := Except.ok.inj h
    exact isClause_select c.table q
  | selectById id =>
    obtain rfl := Except.ok.inj h
    exact c.isClause_selectById id
  | select q =>
    obtain rfl := Except.ok.inj h
    exact isClause_select c.table _
  | count filter =>
    obtain rfl := Except.ok.inj h
    exact c.isClause_count filter
  | insert catalog rows returning => exact isClause_insert h
  | update catalog data filter returning => exact isClause_update h
  | hardDelete id =>
    obtain rfl := Except.ok.inj h
    exact c.isClause_hardDelete id
  | setDeleted deleted deletion id =>
    obtain rfl := Except.ok.inj h
    exact c.isClause_setDeleted deleted deletion id

theorem isChain_ended {f : Fragment} (hf : IsClause f) : (ended f).IsChain Apart := by
  refine hf.apart.append (.singleton _) ?_
  rintro s - t ht
  obtain rfl := Option.some.inj ht
  exact .inr trivial

theorem statement_eq {c : Config} {r : Request} {command : Command}
    (h : c.statement r = .ok command) : ∃ g, IsClause g ∧ command = c.command (ended g) := by
  rw [statement_eq_map] at h
  cases hf : c.fragment r with
  | error e => rw [hf] at h; cases h
  | ok f =>
    rw [hf] at h
    obtain ⟨g, hg, rfl⟩ := fragment_eq_ended hf
    exact ⟨g, hg, (Except.ok.inj h).symm⟩

/-- The text of a statement is read as the lexemes of one clause and a semicolon. -/
theorem lex_statement {c : Config} {r : Request} {command : Command}
    (h : c.statement r = .ok command) :
    ∃ g, IsClause g ∧ command.params = g.params ∧
      lex c.dialect command.sql.toList =
        some (numbered c.dialect 0 g.lexemes ++ [.symbol .semicolon]) := by
  obtain ⟨g, hg, rfl⟩ := statement_eq h
  refine ⟨g, hg, ?_, ?_⟩
  · simp [Config.command, Fragment.command, ended, params, Token.param?]
  · rw [Config.command, Fragment.command, lex_write c.dialect 0 (isChain_ended hg), ended,
      lexemes_append, numbered_append]
    rfl

end Config

end SingleTable
