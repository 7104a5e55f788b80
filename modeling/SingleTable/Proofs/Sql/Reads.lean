import SingleTable.Proofs.Sql.Alignment
import SingleTable.Proofs.Sql.Selection
import SingleTable.Rows.Matching

/-! # Reads without a query

The read by key and the count have statements of their own, beside the one for queries, and ask the
same as a query does.

* `Sql.Engine`: what a database makes of conditions and orders; `Selection.answer` is its answer.
* `Config.selectById_eq_select`: the read by key is a query for the first row of the key.
* `Config.command_around`: a statement around the condition of a filter.
* `Config.reads_agree`: the texts, the parameters and the answers.
-/

namespace SingleTable
open Sql Sql.Fragment

/-! ## Answers -/

/-- A database is free in what it makes of a condition and of an order, but an order neither loses
rows nor adds any. -/
structure Sql.Engine where
  admits : List (Lexeme Param) → Record → Bool
  arrange : List SortKey → List Record → List Record
  perm : ∀ order rows, (arrange order rows).Perm rows

namespace Sql.Selection

/-- The rows of which the condition is true; without a condition all of them. -/
def kept (s : Selection) (db : Engine) (rows : List Record) : List Record :=
  rows.filter fun r => s.condition.all fun xs => db.admits xs r

def answer (s : Selection) (db : Engine) (rows : List Record) : List Record :=
  Rows.page s.offset s.limit <| match s.wanted with
    | .rows => db.arrange s.order (s.kept db rows)
    | .number name => [[(name, .number (.int (s.kept db rows).length))]]

/-- The same without a page. -/
def unpaged (s : Selection) : Selection := { s with limit := none, offset := none }

/-- Putting rows in order leaves their number as it is. -/
theorem length_answer_unpaged {s : Selection} (hwanted : s.wanted = .rows) (db : Engine)
    (rows : List Record) : (s.unpaged.answer db rows).length = (s.kept db rows).length := by
  have hanswer : s.unpaged.answer db rows = db.arrange s.order (s.kept db rows) := by
    unfold answer
    rw [show s.unpaged.wanted = .rows from hwanted]
    rfl
  rw [hanswer]
  exact (db.perm s.order (s.kept db rows)).length_eq

end Sql.Selection

/-! ## Texts without values -/

namespace Sql

/-- A token that is no value looks the same wherever it stands. -/
theorem Token.text_of_param?_eq_none {t : Token} (h : t.param? = none) (d : Dialect) (i j : Nat) :
    t.text d i = t.text d j := by
  cases t with
  | param p => cases h
  | _ => rfl

theorem write_of_params_eq_nil {f : Fragment} (h : f.params = []) (d : Dialect) (i j : Nat) :
    write d i f = write d j f := by
  induction f with
  | nil => rfl
  | cons t f ih =>
    rw [params_cons] at h
    obtain ⟨ht, hf⟩ := List.append_eq_nil_iff.mp h
    have hnone : t.param? = none := by simpa using ht
    simp only [write, hnone, Option.isSome_none, Bool.false_eq_true, if_false]
    rw [ih hf, Token.text_of_param?_eq_none hnone d]

theorem params_tail (q : Query) : (Sql.tail q).params = [] := by
  have hterms : ∀ order : List OrderTerm,
      (Fragment.listed (order.map orderTerm)).params = [] := by
    intro order
    rw [params_listed, List.flatMap_map]
    exact List.flatMap_eq_nil_iff.mpr fun _ _ => rfl
  have horder : (Fragment.tail (order? q.order)).params = [] := by
    unfold order?
    split
    · rfl
    · simp only [Fragment.tail, params_cons, Token.param?, params_spaced, List.flatMap_cons,
        List.flatMap_nil, hterms]
      rfl
  have hcounted : ∀ (w : Word) (n : Option Nat),
      (Fragment.tail (n.map (counted w))).params = [] := by
    intro w n
    cases n <;> rfl
  rw [Sql.tail, params_append, params_append, horder, hcounted, hcounted]
  rfl

end Sql

/-! ## Statements -/

/-- A text, a number or a truth value. -/
def Json.IsScalar : Json → Prop
  | .string _ | .number _ | .bool _ => True
  | _ => False

namespace Leaf

/-- The column is equal to a value. -/
def isKey (column : String) (id : Json) (chain : Chain) : Leaf :=
  ⟨column, .equals, .one (.raw id), chain, false⟩

theorem build_isKey (column : String) {id : Json} (h : id.IsScalar) (chain : Chain) :
    build column .equals id chain false = .ok (isKey column id chain) := by
  cases id with
  | string s => rfl
  | number n => rfl
  | bool b => rfl
  | _ => cases h

end Leaf

namespace Config

theorem selectById_eq_select (c : Config) (id : Json) (chain : Chain) :
    c.selectById (.ofJson id) =
      c.select { filter := [.leaf (.isKey c.idColumn id chain)], limit := some 1 } := by
  have hparam : ofParam (.ofJson id) = [.param (.ofJson id)] := by
    have hne := Param.ofJson_ne_default id
    cases hp : Param.ofJson id <;> first | rfl | exact absurd hp hne
  have hmatching : matching c.idColumn (.ofJson id) =
      [.name c.idColumn, .mark .blank, .operator .equals, .mark .blank, .param (.ofJson id)] := by
    rw [matching, hparam]
    rfl
  have hleaf : (Leaf.isKey c.idColumn id chain).sql = matching c.idColumn (.ofJson id) := rfl
  unfold selectById select liveFilter
  cases c.softDeleteColumn?
  all_goals
    simp only [Sql.select, whereClause, condition?, List.cons_append, List.nil_append,
      List.drop_succ_cons, List.drop_zero, List.any_nil, Bool.false_eq_true, if_false, Node.sql,
      hleaf, hmatching]
    rfl

/-- A statement around a condition: what stands before and behind it holds no values, so that the
condition is what a binder writes that has nothing else to write. -/
theorem command_around (c : Config) (head rest : Fragment) (hhead : head.params = [])
    (hrest : rest.params = []) (filter : List Node) :
    let written := Binder.writeCondition ⟨c.dialect, 0, []⟩ filter
    c.command (ended (head ++ Fragment.tail (whereClause filter) ++ rest)) =
      ⟨write c.dialect 0 head ++ written.1.elim "" (" WHERE " ++ ·) ++ write c.dialect 0 rest ++ ";",
        written.2.params⟩ := by
  intro written
  obtain ⟨hwhere, hparams⟩ := write_whereClause ⟨c.dialect, 0, []⟩ filter
  have hend : ∀ i, write c.dialect i [.mark .semicolon] = ";" := fun _ => rfl
  have hlast : params [.mark .semicolon] = [] := rfl
  simp only [List.length_nil, Nat.add_zero, List.nil_append] at hwhere hparams
  simp only [command, Fragment.command, ended, write_append, params_append, hhead, hrest, hend,
    hlast, List.nil_append, List.append_nil, List.length_nil, Nat.add_zero]
  rw [hwhere, hparams, write_of_params_eq_nil hrest c.dialect _ 0]

theorem write_rowsOf (d : Dialect) (table : String) :
    write d 0 (spaced [ofWord .select, [.mark .star], ofWord .source, ofName table]) =
      "SELECT * FROM " ++ d.quote table := by
  change "SELECT" ++ (" " ++ ("*" ++ (" " ++ ("FROM" ++ (" " ++ (d.quote table ++ "")))))) = _
  rw [String.append_empty]
  simp only [← String.append_assoc]
  rfl

theorem write_numberOf (d : Dialect) (table : String) :
    write d 0 (spaced [ofWord .select, call .count [[.mark .star]], ofWord .named, ofName "count",
        ofWord .source, ofName table]) =
      "SELECT COUNT(*) AS " ++ d.quote "count" ++ " FROM " ++ d.quote table := by
  have hselect : "SELECT COUNT(*) AS " = "SELECT" ++ (" " ++ ("COUNT" ++ ("(" ++ ("*" ++ (")" ++
    (" " ++ ("AS" ++ " "))))))) := rfl
  have hfrom : " FROM " = " " ++ ("FROM" ++ " ") := rfl
  change "SELECT" ++ (" " ++ ("COUNT" ++ ("(" ++ ("*" ++ (")" ++ (" " ++ ("AS" ++ (" " ++
    (d.quote "count" ++ (" " ++ ("FROM" ++ (" " ++ (d.quote table ++ ""))))))))))))) = _
  rw [hselect, hfrom, String.append_empty]
  simp only [String.append_assoc]

/-- **The read by key and the count ask what queries ask.** The read by key has the text and the
parameters of a query for the first row that an equality with the key holds of. The count has the
condition and the parameters of every query with its filter, and its answer is the number of rows
that such a query finds when it asks for no page, whatever the database makes of the condition. -/
theorem reads_agree (c : Config) :
    (∀ id : Json, id.IsScalar → ∀ chain, ∃ l,
      Leaf.build c.idColumn .equals id chain false = .ok l ∧
        c.statement (.selectById (.ofJson id)) =
          c.statement (.select { filter := [.leaf l], limit := some 1 })) ∧
    ∀ q : Query,
      let written := Binder.writeCondition ⟨c.dialect, 0, []⟩ (c.liveFilter q.filter)
      let clause := written.1.elim "" (" WHERE " ++ ·)
      let table := c.dialect.quote c.table
      let counted : Command :=
        ⟨"SELECT COUNT(*) AS " ++ c.dialect.quote "count" ++ " FROM " ++ table ++ clause ++ ";",
          written.2.params⟩
      let found : Command :=
        ⟨"SELECT * FROM " ++ table ++ clause ++ write c.dialect 0 (Sql.tail q) ++ ";",
          written.2.params⟩
      c.statement (.count q.filter) = .ok counted ∧ c.statement (.select q) = .ok found ∧
        ∃ s t, Selection.ofCommand? c.dialect counted = some s ∧
          Selection.ofCommand? c.dialect found = some t ∧
          ∀ db rows, s.answer db rows =
            [[("count", .number (.int (t.unpaged.answer db rows).length))]] := by
  constructor
  · intro id hid chain
    refine ⟨_, Leaf.build_isKey c.idColumn hid chain, ?_⟩
    rw [statement_eq_map, statement_eq_map]
    exact congrArg (Except.ok ∘ c.command) (c.selectById_eq_select id chain)
  · intro q written clause table counted found
    have hcounted : c.command (c.count q.filter) = counted := by
      have h := c.command_around (spaced [ofWord .select, call .count [[.mark .star]],
        ofWord .named, ofName "count", ofWord .source, ofName c.table]) [] rfl rfl
        (c.liveFilter q.filter)
      rw [write_numberOf, List.append_nil] at h
      rw [count, h]
      simp only [write, String.append_empty]
      rfl
    have hfound : c.command (c.select q) = found := by
      have h := c.command_around (spaced [ofWord .select, [.mark .star], ofWord .source,
        ofName c.table]) _ rfl (params_tail q) (c.liveFilter q.filter)
      rw [write_rowsOf] at h
      exact h
    have hs := c.selection_count q.filter
    have ht := c.selection_select q
    rw [hcounted] at hs
    rw [hfound] at ht
    refine ⟨(c.statement_eq_map _).trans (congrArg Except.ok hcounted),
      (c.statement_eq_map _).trans (congrArg Except.ok hfound), _, _, hs, ht, fun db rows => ?_⟩
    rw [Selection.length_answer_unpaged rfl]
    rfl

theorem reads_agree_users :
    let c := { Config.ofTable "users" (.ofList
      [⟨"id", .serial, false⟩, ⟨"name", .string, false⟩, ⟨"deleted_at", .timestamp, false⟩]) with
      dialect := .mysql, deletedColumn := some "deleted_at" }
    let id := Json.number (.int 5)
    let l : Leaf := ⟨"id", .equals, .one (.raw id), .or, false⟩
    let either := [.leaf ⟨"name", .like, .one (.text "a*"), .and, false⟩, Node.leaf l]
    id.IsScalar ∧ Leaf.build c.idColumn .equals id .or false = .ok l ∧
      c.statement (.selectById (.ofJson id)) =
        c.statement (.select { filter := [.leaf l], limit := some 1 }) ∧
      (c.statement (.selectById (.ofJson id))).map Command.sql =
        .ok "SELECT * FROM `users` WHERE `id` = ? AND `deleted_at` IS NULL LIMIT 1;" ∧
      (c.statement (.count either)).map Command.sql =
        .ok ("SELECT COUNT(*) AS `count` FROM `users` " ++
          "WHERE (`name` LIKE ? OR `id` = ?) AND `deleted_at` IS NULL;") ∧
      ∃ s counted, c.statement (.count either) = .ok counted ∧
        Selection.ofCommand? .mysql counted = some s ∧
        ∀ db rows, (s.answer db rows).length = 1 := by
  intro c id l either
  have hid : id.IsScalar := trivial
  obtain ⟨hget, hcount⟩ := reads_agree c
  obtain ⟨k, hk, hstatement⟩ := hget id hid .or
  obtain rfl : l = k := Except.ok.inj ((Leaf.build_isKey "id" hid .or).symm.trans hk)
  obtain ⟨hcounted, -, s, t, hs, -, hanswer⟩ := hcount { filter := either }
  refine ⟨hid, hk, hstatement, congrArg Except.ok (by decide +kernel),
    congrArg Except.ok (by decide +kernel), s, _, hcounted, hs, fun db rows => ?_⟩
  rw [hanswer]
  rfl

end Config

end SingleTable
