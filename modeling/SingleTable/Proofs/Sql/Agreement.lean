import SingleTable.Proofs.Filter.Normal
import SingleTable.Proofs.Sql.Request
import SingleTable.Proofs.Sql.SearchCondition
import SingleTable.Rows.Matching

/-! # Filters in SQL and in memory

A filter is written down for a database, or asked of rows in memory. Both give the same rows.

* `Leaf.test`, `Node.factor`: the condition that a filter stands for.
* `Node.lexemes_sql`: it is what the text of the filter reads as.
* `Node.isYes_factor`: it is true of the rows that the filter holds of.
* `Query.condition_agrees`: both together, for every filter that has been read.
-/

namespace SingleTable
open Sql Sql.Fragment

/-! ## The test of a leaf -/

theorem lexemes_dated {α : Type} (b : Bool) {f : Fragment} {g : α → Lexeme Param} {x : α}
    (hf : f.lexemes = [g x]) : (dated b f).lexemes = Dated.lexemes g ⟨b, x⟩ := by
  cases b with
  | false => exact hf
  | true =>
    have hcall : (Fragment.call .date [f]).lexemes =
        .keyword .date :: (Fragment.enclosed (listed [f])).lexemes := rfl
    rw [dated, if_pos rfl, hcall, lexemes_enclosed, lexemes_listed, hf]
    rfl

theorem lexemes_truth (b : Bool) : (truth b).lexemes = (Test.constant b).lexemes := by
  rw [truth, lexemes_spaced]
  rfl

namespace Leaf

def cutColumn (l : Leaf) : Dated String := ⟨l.dateCast, l.key⟩

def cutParam (l : Leaf) (p : Param) : Dated Param := ⟨l.dateCast, p⟩

/-- The test that a leaf is written as. Nothing is a member of the empty list. -/
def test (l : Leaf) : Test :=
  match l.condition, l.operand with
  | .isNull, _ => .missing false l.cutColumn
  | .isNotNull, _ => .missing true l.cutColumn
  | .isIn, .many (x :: xs) =>
    .member l.cutColumn (l.cutParam x.toParam) (xs.map fun x => l.cutParam x.toParam)
  | .like, .one x => .like false l.cutColumn (l.cutParam x.likeParam)
  | .notLike, .one x => .like true l.cutColumn (l.cutParam x.likeParam)
  | c, .one x =>
    match conditionSpelling c with
    | .inl op => .compare op l.cutColumn (l.cutParam x.toParam)
    | .inr _ => .constant false
  | _, .many _ => .constant false

theorem lexemes_column {l : Leaf} (hkey : Identifier.IsWord l.key) :
    l.column.lexemes = Test.column l.cutColumn := by
  apply lexemes_dated
  exact lexemes_ofName hkey

theorem lexemes_bound (l : Leaf) {p : Param} (hp : p ≠ .default) :
    (l.bound p).lexemes = Test.bound (l.cutParam p) := by
  apply lexemes_dated
  exact lexemes_ofParam hp

theorem lexemes_comparison {l : Leaf} (hkey : Identifier.IsWord l.key) (c : Condition)
    (f : Fragment) :
    (Fragment.spaced [l.column, [.operator c], f]).lexemes =
      Test.column l.cutColumn ++ (conditionLexemes c ++ f.lexemes) := by
  simp [lexemes_spaced, lexemes_column hkey, Token.lexemes]

theorem lexemes_missing {l : Leaf} (hkey : Identifier.IsWord l.key) (c : Condition) :
    (Fragment.spaced [l.column, [.operator c]]).lexemes =
      Test.column l.cutColumn ++ conditionLexemes c := by
  simp [lexemes_spaced, lexemes_column hkey, Token.lexemes]

theorem lexemes_members (l : Leaf) (x : Operand) (xs : List Operand) :
    (Fragment.enclosed (listed ((x :: xs).map fun x => l.bound x.toParam))).lexemes =
      .symbol .open :: (Test.bound (l.cutParam x.toParam) ++
        (Test.others (xs.map fun x => l.cutParam x.toParam) ++ [.symbol .close])) := by
  have hothers : ((xs.map fun x => l.bound x.toParam).flatMap fun f => .symbol .comma :: f.lexemes) =
      Test.others (xs.map fun x => l.cutParam x.toParam) := by
    simp only [Test.others, List.flatMap_map, lexemes_bound l (Operand.toParam_ne_default _)]
  rw [lexemes_enclosed, List.map_cons, lexemes_listed, hothers,
    l.lexemes_bound x.toParam_ne_default, List.append_assoc]

/-- The text of a leaf is its test. -/
theorem lexemes_sql {l : Leaf} (hkey : Identifier.IsWord l.key) (hs : l.IsSettled) :
    l.sql.lexemes = l.test.lexemes := by
  obtain ⟨key, c, operand, chain, dateCast⟩ := l
  cases operand with
  | one x =>
    let l : Leaf := ⟨key, c, .one x, chain, dateCast⟩
    have hcompare := lexemes_comparison (l := l) hkey c (l.bound x.toParam)
    have hlike := lexemes_comparison (l := l) hkey c (l.bound x.likeParam)
    rw [lexemes_bound _ x.toParam_ne_default] at hcompare
    rw [lexemes_bound _ x.likeParam_ne_default] at hlike
    cases c with
    | isNull => exact lexemes_missing hkey .isNull
    | isNotNull => exact lexemes_missing hkey .isNotNull
    | isIn => exact absurd rfl hs
    | like => exact hlike
    | notLike => exact hlike
    | _ => exact hcompare
  | many xs =>
    obtain rfl : c = .isIn := hs
    cases xs with
    | nil => exact lexemes_truth false
    | cons x xs =>
      refine (lexemes_comparison hkey .isIn _).trans ?_
      rw [lexemes_members]
      rfl

theorem isYes_compared (l : Leaf) (r : Record) (op : Comparison) (p : Param) :
    (Test.compared r op l.cutColumn (l.cutParam p)).isYes =
      ((l.field r).compareParam? (l.castParam p)).any op.admits := by
  change (Truth.ofOption (((l.field r).compareParam? (l.castParam p)).map op.admits)).isYes = _
  cases (l.field r).compareParam? (l.castParam p) with
  | none => rfl
  | some o => simp

theorem isYes_foldl_or {α : Type} (f : α → Truth) (t : Truth) (xs : List α) :
    (xs.foldl (fun t x => t.or (f x)) t).isYes = (t.isYes || xs.any fun x => (f x).isYes) := by
  induction xs generalizing t with
  | nil => simp
  | cons x xs ih => rw [List.foldl_cons, ih, Truth.isYes_or, List.any_cons, Bool.or_assoc]

theorem isYes_like (l : Leaf) (r : Record) (negated : Bool) (p : Param) :
    ((Test.like negated l.cutColumn (l.cutParam p)).truth r).isYes =
      ((l.field r).likeParam? (l.castParam p) == some !negated) := by
  change (Truth.ofOption (((l.field r).likeParam? (l.castParam p)).map (· != negated))).isYes = _
  cases (l.field r).likeParam? (l.castParam p) with
  | none => rfl
  | some b => cases b <;> cases negated <;> rfl

theorem isYes_missing (l : Leaf) (r : Record) (negated : Bool) :
    ((Test.missing negated l.cutColumn).truth r).isYes = ((l.field r).isNull != negated) :=
  Truth.isYes_ofBool _

theorem isYes_member (l : Leaf) (r : Record) (x : Operand) (xs : List Operand) :
    ((Test.member l.cutColumn (l.cutParam x.toParam)
        (xs.map fun x => l.cutParam x.toParam)).truth r).isYes =
      (x :: xs).any fun x => (l.field r).compareParam? (l.castParam x.toParam) == some .eq := by
  have hequal : ∀ o : Option Ordering, o.any Comparison.equals.admits = (o == some .eq) := by
    intro o
    cases o <;> rfl
  rw [Test.truth, isYes_foldl_or, List.any_map, List.any_cons, isYes_compared, hequal]
  congr 2
  funext x
  rw [Function.comp_apply, isYes_compared, hequal]

/-- The test of a leaf is true of the rows that the leaf holds of. -/
theorem isYes_test (l : Leaf) (r : Record) : (l.test.truth r).isYes = l.holds r := by
  obtain ⟨key, c, operand, chain, dateCast⟩ := l
  cases c with
  | isNull => exact (isYes_missing _ r false).trans (Bool.bne_false _)
  | isNotNull => exact (isYes_missing _ r true).trans (Bool.bne_true _)
  | isIn =>
    cases operand with
    | one x =>
      have hnever : ∀ o : Option Ordering, false = o.any Condition.isIn.admits := by
        intro o
        cases o <;> rfl
      exact hnever _
    | many xs =>
      cases xs with
      | nil => rfl
      | cons x xs => exact isYes_member _ r x xs
  | like =>
    cases operand with
    | one x => exact isYes_like _ r false x.likeParam
    | many xs => rfl
  | notLike =>
    cases operand with
    | one x => exact isYes_like _ r true x.likeParam
    | many xs => rfl
  | _ =>
    cases operand with
    | one x => exact isYes_compared _ r _ x.toParam
    | many xs => rfl

end Leaf

/-! ## The condition of a filter -/

mutual
def Node.factor : Node → Factor
  | .leaf l => .test l.test
  | .group _ [] => .test (.constant true)
  | .group _ (n :: ns) => .enclosed (Node.disjunction (.one (.one n.factor)) ns)
/-- Nodes after a condition, each joined to it by its chain. -/
def Node.disjunction (d : Disjunction) : List Node → Disjunction
  | [] => d
  | n :: ns => Node.disjunction (d.join n.chain n.factor) ns
end

/-- A leaf of which the text is read back. -/
def Leaf.IsPlain (l : Leaf) : Prop := Identifier.IsWord l.key ∧ l.IsSettled

theorem Leaf.isPlain_isNull {key : String} (h : Identifier.IsWord key) (chain : Chain) :
    (Leaf.isNull key chain).IsPlain := by
  have hsettled : Condition.isNull ≠ .isIn := by decide
  exact ⟨h, hsettled⟩

namespace Node

mutual
theorem lexemes_sql : ∀ {n : Node}, n.All Leaf.IsPlain → n.sql.lexemes = n.factor.lexemes
  | .leaf l, .leaf h => by
      rw [Node.sql, Node.factor]
      exact Leaf.lexemes_sql h.1 h.2
  | .group _ [], _ => lexemes_truth true
  | .group _ (n :: ns), .group _ h => by
      have hn := lexemes_sql (h n List.mem_cons_self)
      have hns := lexemes_disjunction (fun m hm => h m (List.mem_cons_of_mem n hm))
        (.one (.one n.factor))
      rw [Node.sql, Node.factor, lexemes_enclosed, lexemes_append, hn, Factor.lexemes, hns]
      rfl
theorem lexemes_disjunction : ∀ {ns : List Node}, (∀ n ∈ ns, n.All Leaf.IsPlain) →
    ∀ d : Disjunction, (Node.disjunction d ns).lexemes = d.lexemes ++ (sqlRest ns).lexemes
  | [], _, d => (List.append_nil _).symm
  | n :: ns, h, d => by
      have hn := lexemes_sql (h n List.mem_cons_self)
      have hns := lexemes_disjunction (fun m hm => h m (List.mem_cons_of_mem n hm))
        (d.join n.chain n.factor)
      rw [Node.disjunction, hns, Disjunction.lexemes_join, sqlRest, ← hn]
      simp [Token.lexemes, Mark.symbols]
end

theorem lexemes_condition {n : Node} {ns : List Node} (h : ∀ m ∈ n :: ns, m.All Leaf.IsPlain) :
    (n.sql ++ sqlRest ns).lexemes = (disjunction (.one (.one n.factor)) ns).lexemes := by
  rw [lexemes_append, lexemes_sql (h n List.mem_cons_self),
    lexemes_disjunction fun m hm => h m (List.mem_cons_of_mem n hm)]
  rfl

end Node

/-! ## The truth of a filter -/

namespace Sql.Disjunction

/-- What stands before the last `OR`. -/
def earlier (r : Record) : Disjunction → Truth
  | .one _ => .no
  | .or d _ => d.truth r

/-- What stands behind the last `OR`. -/
def last : Disjunction → Conjunction
  | .one c => c
  | .or _ c => c

theorem isYes_eq (d : Disjunction) (r : Record) :
    (d.truth r).isYes = ((d.earlier r).isYes || (d.last.truth r).isYes) := by
  cases d with
  | one c => rfl
  | or d c => exact Truth.isYes_or _ _

end Sql.Disjunction

namespace Node

mutual
theorem isYes_factor (r : Record) : ∀ n : Node, (n.factor.truth r).isYes = n.holds r
  | .leaf l => l.isYes_test r
  | .group _ [] => rfl
  | .group _ (n :: ns) => by
      have hns := isYes_disjunction r ns (.one (.one n.factor))
      rw [Node.factor, Factor.truth, hns, Node.holds, ← isYes_factor r n]
      rfl
/-- The run that `holdsRun` carries along is what stands behind the last `OR`. -/
theorem isYes_disjunction (r : Record) : ∀ (ns : List Node) (d : Disjunction),
    ((Node.disjunction d ns).truth r).isYes =
      ((d.earlier r).isYes || holdsRun r (d.last.truth r).isYes ns)
  | [], d => d.isYes_eq r
  | n :: ns, d => by
      have hn := isYes_factor r n
      have hns := isYes_disjunction r ns (d.join n.chain n.factor)
      rw [Node.disjunction, hns, holdsRun]
      cases n.chain with
      | and =>
        have hlast : ((d.join .and n.factor).last.truth r).isYes =
            ((d.last.truth r).isYes && n.holds r) := by
          rw [← hn]
          cases d <;> exact Truth.isYes_and _ _
        have hearlier : (d.join .and n.factor).earlier r = d.earlier r := by cases d <;> rfl
        rw [hlast, hearlier]
      | or =>
        rw [← hn, ← Bool.or_assoc, ← d.isYes_eq r]
        rfl
end

end Node

/-! ## Agreement -/

/-- What a binder writes for a filter reads as its condition, and as nothing else. -/
theorem Sql.reads_writeCondition {n : Node} {ns : List Node}
    (h : ∀ m ∈ n :: ns, m.All Leaf.IsPlain) (d : Dialect) :
    ∃ text b, Binder.writeCondition ⟨d, 0, []⟩ (n :: ns) = (some text, b) ∧
      Reads d b.params text (Node.disjunction (.one (.one n.factor)) ns) := by
  have hclause := Node.isClause_append_sqlRest ns n.isClause_sql
  refine ⟨_, _, Binder.writeCondition_eq _ _, _, lex_write d 0 hclause.apart, ?_⟩
  rw [← Node.lexemes_condition h]
  exact resolve_numbered d (placeholders_lexemes _).symm

/-- **A filter is true of the same rows in SQL and in memory.** Its text reads as one condition
only, and that condition is true of a row exactly if the filter holds of it. -/
theorem Query.condition_agrees {c : Catalog} (hnames : ∀ name ∈ c.names, Identifier.IsWord name)
    {input : Json} {q : Query} (hq : Query.read c input = .ok q) (d : Dialect) :
    match Binder.writeCondition ⟨d, 0, []⟩ q.filter with
    | (none, _) => ∀ r, Rows.holds q.filter r = true
    | (some text, b) => ∃ φ, Reads d b.params text φ ∧ (∀ ψ, Reads d b.params text ψ → ψ = φ) ∧
        ∀ r, φ.truth r = .yes ↔ Rows.holds q.filter r = true := by
  have hplain : ∀ n ∈ q.filter, n.All Leaf.IsPlain := by
    intro n hn
    refine (Filter.all_of_read (filter_of_read hq) n hn).mono fun l hl => ?_
    exact ⟨hnames l.key hl.1, hl.isSettled⟩
  cases hfilter : q.filter with
  | nil => exact fun _ => rfl
  | cons n ns =>
    rw [hfilter] at hplain
    obtain ⟨text, b, hw, hreads⟩ := reads_writeCondition hplain d
    rw [hw]
    refine ⟨_, hreads, fun ψ hψ => hψ.unique hreads, fun r => ?_⟩
    have htruth := Node.isYes_disjunction r ns (.one (.one n.factor))
    have hyes : ∀ t : Truth, t = .yes ↔ t.isYes = true := by
      intro t
      cases t <;> decide
    rw [hyes, htruth, Rows.holds, ← Node.isYes_factor r n]
    rfl

theorem Query.condition_agrees_nested :
    let c := Catalog.ofList [⟨"name", .string, false⟩, ⟨"born", .date, false⟩]
    let name : Record := [("key", .string "name"), ("condition", .string "like"),
      ("value", .string "A*")]
    let born : Record := [("key", .string "born"), ("date", .bool true),
      ("value", .array [.string "2020-01-31", .null])]
    let group : Record := [("chain", .string "or"), ("where", .object born)]
    let input := Json.object [("where", .array [.object name, .object group])]
    ∃ q text b φ, Query.read c input = .ok q ∧
      Binder.writeCondition ⟨.postgres, 0, []⟩ q.filter = (some text, b) ∧
      text = "\"name\" LIKE $1 OR (DATE(\"born\") IN (DATE($2), DATE($3)))" ∧
      Reads .postgres b.params text φ ∧ ∀ r, φ.truth r = .yes ↔ Rows.holds q.filter r = true := by
  intro c name born group input
  let nameLeaf : Leaf := ⟨"name", .like, .one (.raw (.string "A*")), .and, false⟩
  let bornLeaf : Leaf :=
    ⟨"born", .isIn, .many [.raw (.string "2020-01-31"), .raw .null], .and, true⟩
  have hname : Filter.readEntry c name = .ok (.leaf nameLeaf) := by
    rw [Filter.readEntry_leaf c rfl]
    rfl
  have hborn : Filter.readEntry c born = .ok (.leaf bornLeaf) := by
    rw [Filter.readEntry_leaf c rfl]
    rfl
  have hgroup : Filter.readEntry c group = .ok (.group .or [.leaf bornLeaf]) := by
    rw [Filter.readEntry_group c rfl, Filter.readEntries, hborn]
    rfl
  have hfilter : Filter.read c input = .ok [.leaf nameLeaf, .group .or [.leaf bornLeaf]] := by
    change Filter.readEntries c (.array _) = _
    rw [Filter.readEntries, Filter.readItems, hname, Filter.readItems, hgroup, Filter.readItems]
    rfl
  have hq : Query.read c input = .ok { filter := [.leaf nameLeaf, .group .or [.leaf bornLeaf]] } := by
    rw [Query.read, hfilter]
    rfl
  have hnames : ∀ name ∈ c.names, Identifier.IsWord name := by decide +kernel
  obtain ⟨φ, hreads, -, htruth⟩ := condition_agrees hnames hq .postgres
  exact ⟨_, _, _, φ, hq, rfl, by decide +kernel, hreads, htruth⟩

end SingleTable
