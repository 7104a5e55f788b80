import SingleTable.Sql.Building

/-! # Building in the order of the text

A fragment numbers its values by their places in the text, and a builder numbers them when it binds
them. The two numbers agree, so values are bound in the order in which their placeholders stand.

* `Build.Writes`: a builder gives the text of a fragment and binds its values.
* `Build.writes_leaf`, `writes_node`, `writes_cell` and the like: the parts of statements.
* `Binder.writeCondition_eq`: a condition after what was bound before it.
* `Statement.select_eq`, `insert_eq` and the like: the statements.
-/

namespace SingleTable
open Sql Sql.Fragment

namespace Sql

/-! ## Writing piece by piece -/

namespace Binder

def text (b : Binder) (f : Fragment) : String := f.write b.dialect (b.offset + b.params.length)

def after (b : Binder) (f : Fragment) : Binder := { b with params := b.params ++ f.params }

variable (b : Binder) (f g : Fragment)

@[simp] theorem dialect_after : (b.after f).dialect = b.dialect := rfl

@[simp] theorem text_nil : b.text [] = "" := rfl

@[simp] theorem after_nil : b.after [] = b := by simp [after]

@[simp] theorem text_append : b.text (f ++ g) = b.text f ++ (b.after f).text g := by
  simp [text, after, write_append, Nat.add_assoc]

@[simp] theorem after_append : b.after (f ++ g) = (b.after f).after g := by simp [after]

@[simp] theorem text_word (w : Word) : b.text (.word w :: f) = w.text ++ b.text f := rfl

@[simp] theorem after_word (w : Word) : b.after (.word w :: f) = b.after f := rfl

@[simp] theorem text_mark (m : Mark) : b.text (.mark m :: f) = m.text ++ b.text f := rfl

@[simp] theorem after_mark (m : Mark) : b.after (.mark m :: f) = b.after f := rfl

@[simp] theorem text_operator (c : Condition) : b.text (.operator c :: f) = c.sql ++ b.text f := rfl

@[simp] theorem after_operator (c : Condition) : b.after (.operator c :: f) = b.after f := rfl

@[simp] theorem text_chain (c : Chain) : b.text (.chain c :: f) = c.sql ++ b.text f := rfl

@[simp] theorem after_chain (c : Chain) : b.after (.chain c :: f) = b.after f := rfl

@[simp] theorem text_direction (o : Direction) : b.text (.direction o :: f) = o.sql ++ b.text f :=
  rfl

@[simp] theorem after_direction (o : Direction) : b.after (.direction o :: f) = b.after f := rfl

@[simp] theorem text_name (s : String) : b.text (.name s :: f) = b.dialect.quote s ++ b.text f :=
  rfl

@[simp] theorem after_name (s : String) : b.after (.name s :: f) = b.after f := rfl

@[simp] theorem text_number (n : Nat) :
    b.text (.number n :: f) = String.ofList (Text.decimal n) ++ b.text f := rfl

@[simp] theorem after_number (n : Nat) : b.after (.number n :: f) = b.after f := rfl

/-! ### What is put together from parts -/

@[simp] theorem text_ofWord (w : Word) : b.text (ofWord w) = w.text := by simp [ofWord]

@[simp] theorem after_ofWord (w : Word) : b.after (ofWord w) = b := by simp [ofWord]

@[simp] theorem text_ofName (s : String) : b.text (ofName s) = b.dialect.quote s := by simp [ofName]

@[simp] theorem after_ofName (s : String) : b.after (ofName s) = b := by simp [ofName]

@[simp] theorem text_spaced_singleton : b.text (spaced [f]) = b.text f := by simp [spaced]

@[simp] theorem after_spaced_singleton : b.after (spaced [f]) = b.after f := by simp [spaced]

@[simp] theorem text_spaced (fs : List Fragment) :
    b.text (spaced (f :: g :: fs)) = b.text f ++ " " ++ (b.after f).text (spaced (g :: fs)) := by
  simp [spaced, List.intercalate_cons_cons, Mark.text, String.append_assoc]

@[simp] theorem after_spaced (fs : List Fragment) :
    b.after (spaced (f :: g :: fs)) = (b.after f).after (spaced (g :: fs)) := by
  simp [spaced, List.intercalate_cons_cons]

@[simp] theorem text_listed_nil : b.text (listed []) = "" := by simp [listed]

@[simp] theorem after_listed_nil : b.after (listed []) = b := by simp [listed]

@[simp] theorem text_listed_singleton : b.text (listed [f]) = b.text f := by simp [listed]

@[simp] theorem text_listed (fs : List Fragment) :
    b.text (listed (f :: g :: fs)) = b.text f ++ ", " ++ (b.after f).text (listed (g :: fs)) := by
  apply String.toList_injective
  simp [listed, List.intercalate_cons_cons, Mark.text]

@[simp] theorem after_listed (fs : List Fragment) :
    b.after (listed (f :: fs)) = (b.after f).after (listed fs) := by
  cases fs with
  | nil => simp [listed]
  | cons g fs => simp [listed, List.intercalate_cons_cons]

@[simp] theorem text_enclosed : b.text (enclosed f) = "(" ++ b.text f ++ ")" := by
  simp [enclosed, Mark.text, String.append_assoc]

@[simp] theorem after_enclosed : b.after (enclosed f) = b.after f := by simp [enclosed]

@[simp] theorem text_call (w : Word) (fs : List Fragment) :
    b.text (call w fs) = w.text ++ "(" ++ b.text (listed fs) ++ ")" := by
  simp [call, String.append_assoc]

@[simp] theorem after_call (w : Word) (fs : List Fragment) :
    b.after (call w fs) = b.after (listed fs) := by simp [call]

@[simp] theorem text_tail (f : Fragment) : b.text (Fragment.tail (some f)) = " " ++ b.text f := by
  simp [Fragment.tail, Mark.text]

@[simp] theorem after_tail (f : Fragment) : b.after (Fragment.tail (some f)) = b.after f := by
  simp [Fragment.tail]

@[simp] theorem text_tail_none : b.text (Fragment.tail none) = "" := rfl

@[simp] theorem after_tail_none : b.after (Fragment.tail none) = b := after_nil b

@[simp] theorem text_ended : b.text (ended f) = b.text f ++ ";" := by simp [ended, Mark.text]

@[simp] theorem after_ended : b.after (ended f) = b.after f := by simp [ended]

end Binder

namespace Build

/-- In the dialect, the step gives the text of the fragment and binds its values. -/
def Writes (d : Dialect) (step : Build String) (f : Fragment) : Prop :=
  ∀ b : Binder, b.dialect = d → step b = (b.text f, b.after f)

variable {d : Dialect}

theorem apply_pure {α : Type} (x : α) (b : Binder) : (pure x : Build α) b = (x, b) := rfl

theorem apply_andThen {α β : Type} (step : Build α) (next : α → Build β) (b : Binder) :
    (step >>= next) b = next (step b).1 (step b).2 := rfl

theorem Writes.map {step : Build String} {f g : Fragment} {k : String → String}
    (h : Writes d step f)
    (hk : ∀ b : Binder, b.dialect = d → k (b.text f) = b.text g ∧ b.after f = b.after g) :
    Writes d (do return k (← step)) g := by
  intro b hb
  obtain ⟨htext, hafter⟩ := hk b hb
  rw [apply_andThen, h b hb, apply_pure, htext, hafter]

theorem Writes.map₂ {step next : Build String} {f g u : Fragment} {k : String → String → String}
    (h : Writes d step f) (h' : Writes d next g)
    (hk : ∀ b : Binder, b.dialect = d →
      k (b.text f) ((b.after f).text g) = b.text u ∧ (b.after f).after g = b.after u) :
    Writes d (do return k (← step) (← next)) u := by
  intro b hb
  obtain ⟨htext, hafter⟩ := hk b hb
  rw [apply_andThen, h b hb, apply_andThen, h' (b.after f) hb, apply_pure, htext, hafter]

theorem writes_bind (p : Param) : Writes d (bind p) (ofParam p) := by
  rintro b rfl
  cases p with
  | default => simp [bind, Binder.bind, ofParam, Word.text]
  | _ =>
    simp [bind, Binder.bind, ofParam, Binder.text, Binder.after, Fragment.write, params,
      Token.param?, Token.text, Nat.add_assoc]

/-! ## Lists -/

/-- One text for each item, and together they are the text of the list. -/
theorem mapM_eq {α : Type} {step : α → Build String} {f : α → Fragment}
    (h : ∀ x, Writes d (step x) (f x)) (xs : List α) :
    ∀ b : Binder, b.dialect = d → ∃ texts,
      xs.mapM step b = (texts, b.after (listed (xs.map f))) ∧
        texts.length = xs.length ∧ ", ".intercalate texts = b.text (listed (xs.map f)) := by
  induction xs with
  | nil =>
    intro b _
    rw [List.mapM_nil, apply_pure]
    exact ⟨[], by simp, rfl, by simp⟩
  | cons x xs ih =>
    intro b hb
    obtain ⟨texts, hrun, hlength, htexts⟩ := ih (b.after (f x)) hb
    refine ⟨b.text (f x) :: texts, ?_, ?_, ?_⟩
    · rw [List.mapM_cons, List.map_cons, Binder.after_listed, apply_andThen, h x b hb,
        apply_andThen, hrun, apply_pure]
    · simp [hlength]
    · cases xs with
      | nil =>
        obtain rfl := List.length_eq_zero_iff.mp hlength
        simp
      | cons y ys =>
        obtain ⟨t, ts, rfl⟩ := List.exists_cons_of_length_eq_add_one hlength
        rw [List.map_cons, List.map_cons, Binder.text_listed, String.intercalate_cons_cons,
          htexts, List.map_cons]

theorem writes_list {α : Type} {step : α → Build String} {f : α → Fragment}
    (h : ∀ x, Writes d (step x) (f x)) (xs : List α) :
    Writes d (list step xs) (listed (xs.map f)) := by
  intro b hb
  obtain ⟨texts, hrun, -, htexts⟩ := mapM_eq h xs b hb
  rw [list, apply_andThen, hrun, apply_pure, htexts]

/-! ## Conditions -/

theorem writes_operand (l : Leaf) (p : Param) : Writes d (operand l p) (l.bound p) := by
  refine (writes_bind p).map fun b _ => ?_
  unfold cast Leaf.bound dated
  split
  · refine ⟨?_, by simp⟩
    simp [datedText, Mark.text, Word.text, String.append_assoc]
  · exact ⟨rfl, rfl⟩

theorem text_column (b : Binder) (l : Leaf) :
    b.text l.column = cast l.dateCast (b.dialect.quote l.key) := by
  unfold cast Leaf.column dated
  split
  · simp [datedText, Mark.text, Word.text, String.append_assoc]
  · simp

theorem after_column (b : Binder) (l : Leaf) : b.after l.column = b := by
  unfold Leaf.column dated
  split <;> simp

theorem text_truth (b : Binder) (x : Bool) :
    b.text (truth x) = if x then "1 = 1" else "1 = 0" := by
  cases x <;> rfl

theorem after_truth (b : Binder) (x : Bool) : b.after (truth x) = b := by
  cases x <;> simp [truth]

theorem writes_test (l : Leaf) :
    Writes d (return cast l.dateCast (d.quote l.key) ++ " " ++ l.condition.sql)
      (spaced [l.column, [.operator l.condition]]) := by
  rintro b rfl
  rw [apply_pure]
  simp [text_column, after_column, String.append_assoc]

theorem writes_truth (x : Bool) : Writes d (return if x then "1 = 1" else "1 = 0") (truth x) := by
  intro b _
  rw [apply_pure, text_truth, after_truth]

/-- A column, a condition and what it is compared with. -/
theorem Writes.compared {step : Build String} {f : Fragment} (h : Writes d step f) (l : Leaf)
    (c : Condition) :
    Writes d (do return cast l.dateCast (d.quote l.key) ++ " " ++ c.sql ++ " " ++ (← step))
      (spaced [l.column, [.operator c], f]) := by
  refine h.map fun b hb => ?_
  subst hb
  constructor
  · simp [text_column, after_column, String.append_assoc]
  · simp [after_column]

/-- A column and the list that it is in. -/
theorem Writes.listed {step : Build String} {f : Fragment} (h : Writes d step f) (l : Leaf) :
    Writes d (do return cast l.dateCast (d.quote l.key) ++ " IN (" ++ (← step) ++ ")")
      (spaced [l.column, [.operator .isIn], enclosed f]) := by
  refine h.map fun b hb => ?_
  subst hb
  constructor
  · apply String.toList_injective
    simp [text_column, after_column, Condition.sql]
  · simp [after_column]

theorem writes_comparison (l : Leaf) :
    Writes d (comparison (cast l.dateCast (d.quote l.key)) l) l.sql := by
  have htest : Writes d _ _ := writes_test l
  unfold comparison Leaf.sql
  cases l.operand with
  | one x =>
    have hlike : Writes d _ _ := writes_operand l x.likeParam
    have hone : Writes d _ _ := writes_operand l x.toParam
    cases hc : l.condition with
    | isNull | isNotNull =>
      rw [hc] at htest
      exact htest
    | like | notLike => exact hlike.compared l _
    | _ => exact hone.compared l _
  | many xs =>
    cases hc : l.condition with
    | isNull | isNotNull =>
      rw [hc] at htest
      exact htest
    | isIn =>
      cases xs with
      | nil => exact writes_truth false
      | cons x xs =>
        have hitem : ∀ y : Operand, Writes d _ _ := fun y => writes_operand l y.toParam
        exact (writes_list hitem (x :: xs)).listed l
    | _ => exact writes_truth false

theorem writes_leaf (l : Leaf) : Writes d (leaf l) l.sql := by
  rintro b rfl
  exact writes_comparison l b rfl

mutual
theorem writes_node : ∀ n : Node, Writes d (node n) n.sql
  | .leaf l => by
      rw [node, Node.sql]
      exact writes_leaf l
  | .group _ [] => by
      rw [node, Node.sql]
      exact writes_truth true
  | .group _ (n :: rest) => by
      rw [node, Node.sql]
      refine (writes_node n).map₂ (writes_following rest) fun b _ => ⟨?_, ?_⟩
      · simp [String.append_assoc]
      · simp
theorem writes_following : ∀ ns : List Node, Writes d (following ns) (Node.sqlRest ns)
  | [] => by
      rw [following, Node.sqlRest]
      intro b _
      rw [apply_pure, Binder.text_nil, Binder.after_nil]
  | n :: rest => by
      rw [following, Node.sqlRest]
      refine (writes_node n).map₂ (writes_following rest) fun b _ => ⟨?_, ?_⟩
      · simp [Mark.text, String.append_assoc]
      · simp
end

/-- The condition of a filter, if it has one. -/
theorem condition?_eq (filter : List Node) (b : Binder) :
    condition? filter b =
      match Sql.condition? filter with
      | none => (none, b)
      | some f => (some (b.text f), b.after f) := by
  cases filter with
  | nil => rfl
  | cons n rest =>
    rw [condition?, apply_andThen, writes_node n b rfl, apply_andThen,
      writes_following rest (b.after n.sql) rfl, apply_pure, Sql.condition?]
    simp

theorem writes_whereClause (filter : List Node) :
    Writes d (whereClause filter) (Fragment.tail (Sql.whereClause filter)) := by
  intro b _
  rw [whereClause, apply_andThen, condition?_eq, Sql.whereClause]
  cases Sql.condition? filter with
  | none => simp [apply_pure]
  | some f =>
    rw [Option.map_some]
    refine Prod.ext ?_ ?_
    · apply String.toList_injective
      simp [apply_pure, Word.text]
    · simp [apply_pure]

/-! ## Values -/

theorem writes_cell (c : Catalog) (name : String) (j : Json) :
    Writes d (cell c name j) (c.bound name j) := by
  unfold cell Catalog.bound
  cases c.type? name with
  | none => exact writes_bind _
  | some t =>
    cases t with
    | point =>
      cases j with
      | object fields =>
        refine (writes_bind _).map₂ (writes_bind _) fun b _ => ⟨?_, ?_⟩
        · apply String.toList_injective
          simp [Word.text]
        · simp
      | _ => exact writes_bind _
    | _ => exact writes_bind _

theorem writes_value (catalog : Catalog) (row : Record) (name : String) :
    Writes d (value catalog row name) (Config.cell catalog row name) := by
  unfold value Config.cell
  cases row.get? name with
  | none => exact writes_bind .default
  | some j => exact writes_cell catalog name j

theorem writes_tuple (catalog : Catalog) (columns : List String) (row : Record) :
    Writes d (tuple catalog columns row) (Config.tuple catalog columns row) := by
  refine (writes_list (writes_value catalog row) columns).map fun b _ => ⟨?_, ?_⟩
  · simp [Config.tuple, String.append_assoc]
  · simp [Config.tuple]

theorem writes_assignment (catalog : Catalog) (field : String × Json) :
    Writes d (assignment d catalog field) (Config.assignment catalog field) := by
  refine (writes_cell catalog field.1 field.2).map fun b hb => ?_
  subst hb
  constructor
  · apply String.toList_injective
    simp [Config.assignment, Condition.sql]
  · simp [Config.assignment]

/-- The command of a step that writes a fragment. -/
theorem Writes.command_eq {step : Build String} {f : Fragment} (h : Writes d step f) :
    command d step = f.command d := by
  have hrun : step.run { dialect := d } = _ := h { dialect := d } rfl
  rw [command, hrun]
  rfl

end Build

theorem Binder.writeCondition_eq (b : Binder) (filter : List Node) :
    b.writeCondition filter =
      match condition? filter with
      | none => (none, b)
      | some f => (some (b.text f), b.after f) := Build.condition?_eq filter b

/-! ## Texts without values -/

section Texts
variable (b : Binder)

/-- Items that bind nothing are written one by one. -/
theorem text_listed_map {α : Type} {f : α → Fragment} {text : α → String}
    (h : ∀ x, b.text (f x) = text x ∧ b.after (f x) = b) (xs : List α) :
    b.text (Fragment.listed (xs.map f)) = ", ".intercalate (xs.map text) ∧
      b.after (Fragment.listed (xs.map f)) = b := by
  induction xs with
  | nil => simp
  | cons x xs ih =>
    obtain ⟨htext, hafter⟩ := ih
    cases xs with
    | nil => simpa using h x
    | cons y xs =>
      rw [List.map_cons] at htext hafter
      rw [List.map_cons, List.map_cons, Binder.text_listed, Binder.after_listed, (h x).2, htext,
        hafter, (h x).1]
      simp [String.intercalate_cons_cons]

theorem text_names (names : List String) :
    b.text (Fragment.listed (names.map ofName)) = namesText b.dialect names ∧
      b.after (Fragment.listed (names.map ofName)) = b :=
  text_listed_map b (fun name => ⟨b.text_ofName name, b.after_ofName name⟩) names

theorem text_orderTerm (t : OrderTerm) :
    b.text (orderTerm t) = b.dialect.quote t.key ++ " " ++ t.direction.sql ∧
      b.after (orderTerm t) = b := by
  simp [orderTerm, String.append_assoc]

theorem text_order (order : List OrderTerm) :
    b.text (Fragment.tail (order? order)) = orderText b.dialect order ∧
      b.after (Fragment.tail (order? order)) = b := by
  unfold order? orderText
  split
  · simp
  · obtain ⟨htext, hafter⟩ := text_listed_map b (text_orderTerm b) order
    constructor
    · apply String.toList_injective
      simp [Word.text, htext]
    · simp [hafter]

theorem text_counted (w : Word) (n : Option Nat) :
    b.text (Fragment.tail (n.map (counted w))) = countText (" " ++ w.text ++ " ") n ∧
      b.after (Fragment.tail (n.map (counted w))) = b := by
  cases n with
  | none => simp [countText]
  | some n =>
    simp [counted, countText, String.append_assoc]

theorem text_tail (q : Query) :
    b.text (Sql.tail q) = tailText b.dialect q ∧ b.after (Sql.tail q) = b := by
  obtain ⟨horder, horder'⟩ := text_order b q.order
  obtain ⟨hlimit, hlimit'⟩ := text_counted b .limit q.limit
  obtain ⟨hoffset, hoffset'⟩ := text_counted b .offset q.offset
  simp only [Sql.tail, tailText, Binder.text_append, Binder.after_append, horder, horder', hlimit,
    hlimit', hoffset, hoffset', and_true]
  rfl

theorem text_returning (columns : List String) :
    b.text (Fragment.tail (Config.returningClause b.dialect columns)) =
        returningText b.dialect columns ∧
      b.after (Fragment.tail (Config.returningClause b.dialect columns)) = b := by
  unfold Config.returningClause returningText
  split
  · simp
  · obtain ⟨htext, hafter⟩ := text_names b columns
    constructor
    · apply String.toList_injective
      simp [Word.text, htext]
    · simp [hafter]

end Texts
end Sql

/-! ## Statements -/

namespace Statement

theorem query_eq (d : Dialect) (table : String) (q : Query) :
    query d table q = (Sql.select table q).command d := by
  refine Build.Writes.command_eq ((Build.writes_whereClause q.filter).map fun b hb => ?_)
  subst hb
  obtain ⟨htail, htail'⟩ := text_tail (b.after (Fragment.tail (whereClause q.filter))) q
  constructor
  · apply String.toList_injective
    simp [Sql.select, Mark.text, Word.text, htail]
  · simp [Sql.select, htail']

variable (c : Config)

theorem selectById_eq (id : Param) : selectById c id = c.command (c.selectById id) := by
  refine Build.Writes.command_eq ((Build.writes_bind id).map fun b hb => ?_)
  rw [← hb]
  unfold Config.selectById
  cases c.softDeleteColumn? with
  | none =>
    constructor
    · apply String.toList_injective
      simp [Config.matching, counted, Mark.text, Word.text, Condition.sql]
      decide
    · simp [Config.matching, counted]
  | some deleted =>
    constructor
    · apply String.toList_injective
      simp [Config.matching, counted, Mark.text, Word.text, Condition.sql, Chain.sql]
      decide
    · simp [Config.matching, counted]

theorem select_eq (q : Query) : select c q = c.command (c.select q) := query_eq _ _ _

theorem count_eq (filter : List Node) : count c filter = c.command (c.count filter) := by
  refine Build.Writes.command_eq
    ((Build.writes_whereClause (c.liveFilter filter)).map fun b hb => ?_)
  rw [← hb]
  constructor
  · apply String.toList_injective
    simp [Config.count, Mark.text, Word.text]
  · simp [Config.count]

theorem insert_eq (catalog : Catalog) (rows : List Record) (returning : List String) :
    insert c catalog rows returning = (c.insert catalog rows returning).map c.command := by
  unfold insert Config.insert
  cases Config.suppliedColumns catalog rows with
  | nil => rfl
  | cons name names =>
    refine congrArg Except.ok ?_
    generalize name :: names = columns
    have htuples := Build.writes_list (d := c.dialect) (Build.writes_tuple catalog columns) rows
    refine Build.Writes.command_eq (htuples.map fun b hb => ?_)
    rw [← hb]
    obtain ⟨hnames, hnames'⟩ := text_names b columns
    obtain ⟨htail, htail'⟩ := text_returning
      (b.after (Fragment.listed (rows.map (Config.tuple catalog columns)))) returning
    rw [Binder.dialect_after] at htail htail'
    constructor
    · apply String.toList_injective
      simp [Word.text, hnames, hnames', htail]
    · simp [hnames', htail']

theorem update_eq (catalog : Catalog) (data : Record) (filter : List Node)
    (returning : List String) :
    update c catalog data filter returning =
      (c.update catalog data filter returning).map c.command := by
  unfold update Config.update
  cases data with
  | nil => rfl
  | cons field data =>
    refine congrArg Except.ok ?_
    generalize field :: data = fields
    have hassignments := Build.writes_list (Build.writes_assignment (d := c.dialect) catalog) fields
    refine Build.Writes.command_eq
      (hassignments.map₂ (Build.writes_whereClause filter) fun b hb => ?_)
    rw [← hb]
    obtain ⟨htail, htail'⟩ := text_returning
      ((b.after (Fragment.listed (fields.map (Config.assignment catalog)))).after
        (Fragment.tail (whereClause filter))) returning
    rw [Binder.dialect_after, Binder.dialect_after] at htail htail'
    constructor
    · apply String.toList_injective
      simp [Word.text, htail]
    · simp [htail']

theorem hardDelete_eq (id : Param) : hardDelete c id = c.command (c.hardDelete id) := by
  refine Build.Writes.command_eq ((Build.writes_bind id).map fun b hb => ?_)
  rw [← hb]
  constructor
  · apply String.toList_injective
    simp [Config.hardDelete, Config.matching, Word.text, Condition.sql]
  · simp [Config.hardDelete, Config.matching]

theorem setDeleted_eq (deleted : String) (deletion id : Param) :
    setDeleted c deleted deletion id = c.command (c.setDeleted deleted deletion id) := by
  refine Build.Writes.command_eq
    ((Build.writes_bind deletion).map₂ (Build.writes_bind id) fun b hb => ?_)
  rw [← hb]
  constructor
  · apply String.toList_injective
    simp [Config.setDeleted, Config.matching, Word.text, Condition.sql]
  · simp [Config.setDeleted, Config.matching]

end Statement
end SingleTable
