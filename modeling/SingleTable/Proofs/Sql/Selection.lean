import SingleTable.Proofs.Sql.Batch

/-! # Selections

What a database makes of the text of a `SELECT`, without knowing which query it comes from.

* `Wanted`, `SortKey`: what is asked for, and by what it is put in order.
* `Selection`: both, with a table, a condition and a page. A condition is the lexemes behind `WHERE`
  up to the first one with which no condition goes on.
* `Selection.read?`, `Selection.ofCommand?`: the selection that lexemes are, or that a text with its
  parameters is.
* `Config.selection_select`, `Config.selection_count`: the selections that a configuration issues.
-/

namespace SingleTable
open Sql Sql.Fragment

namespace Sql

/-! ## What is asked for -/

/-- Rows themselves, or one row with their number under a name. -/
inductive Wanted
  | rows
  | number (name : String)
deriving DecidableEq

namespace Wanted

def lexemes : Wanted → List (Lexeme Param)
  | rows => [.symbol .star]
  | number name =>
    [.keyword .count, .symbol .open, .symbol .star, .symbol .close, .keyword .as,
      .quoted name.toList]

def read? : List (Lexeme Param) → Option (Wanted × List (Lexeme Param))
  | .symbol .star :: rest => some (rows, rest)
  | .keyword .count :: .symbol .open :: .symbol .star :: .symbol .close :: .keyword .as ::
      .quoted s :: rest => some (number (String.ofList s), rest)
  | _ => none

theorem read?_lexemes (w : Wanted) : IsReadBy read? lexemes w := by
  intro rest _
  cases w with
  | rows => rfl
  | number name =>
    change some (number (String.ofList name.toList), rest) = _
    rw [String.ofList_toList]

end Wanted

/-! ## Conditions -/

/-- A condition goes on with everything but the words of an order or of a page and the end. -/
def Lexeme.continues : Lexeme Param → Bool
  | keyword .order | keyword .limit | keyword .offset | symbol .semicolon => false
  | _ => true

def conditionLexemes? : Option (List (Lexeme Param)) → List (Lexeme Param)
  | none => []
  | some xs => .keyword .where :: xs

def readCondition : List (Lexeme Param) → Option (List (Lexeme Param)) × List (Lexeme Param)
  | .keyword .where :: xs => (some (xs.takeWhile Lexeme.continues), xs.dropWhile Lexeme.continues)
  | xs => (none, xs)

theorem readCondition_lexemes {condition : Option (List (Lexeme Param))}
    (h : ∀ xs ∈ condition, ∀ x ∈ xs, x.continues = true) {rest : List (Lexeme Param)}
    (hrest : ∀ x ∈ rest.head?, x.continues = false) (hwhere : rest.head? ≠ some (.keyword .where)) :
    readCondition (conditionLexemes? condition ++ rest) = (condition, rest) := by
  cases condition with
  | none =>
    rw [conditionLexemes?, List.nil_append, readCondition]
    rintro xs rfl
    exact hwhere rfl
  | some xs =>
    obtain ⟨htake, hdrop⟩ := Text.takeWhile_append_of_head (h xs rfl) hrest
    rw [conditionLexemes?, List.cons_append, readCondition, htake, hdrop]

/-! ## Orders and pages -/

structure SortKey where
  column : Path
  direction : Direction
deriving DecidableEq

namespace SortKey

def lexemes (k : SortKey) : List (Lexeme Param) :=
  segmentsLexemes k.column ++ [.keyword (directionKeyword k.direction)]

def direction? : Lexeme Param → Option Direction
  | .keyword .asc => some .ascending
  | .keyword .desc => some .descending
  | _ => none

def read? (xs : List (Lexeme Param)) : Option (SortKey × List (Lexeme Param)) := do
  let (column, x :: rest) ← readPath? xs | none
  let direction ← direction? x
  return (⟨column, direction⟩, rest)

theorem read?_lexemes {k : SortKey} (h : k.column ≠ []) : IsReadBy read? lexemes k := by
  intro rest _
  have hcolumn := readPath?_lexemes h (.keyword (directionKeyword k.direction) :: rest) (by simp)
  have hdirection : direction? (.keyword (directionKeyword k.direction)) = some k.direction := by
    cases k.direction <;> rfl
  rw [lexemes, List.append_assoc, List.singleton_append, read?, hcolumn]
  simp only [Option.bind_eq_bind, Option.bind_some, hdirection]
  rfl

end SortKey

def orderLexemes : List SortKey → List (Lexeme Param)
  | [] => []
  | key :: keys => .keyword .order :: .keyword .by :: listedLexemes SortKey.lexemes (key :: keys)

def readOrder? : List (Lexeme Param) → Option (List SortKey × List (Lexeme Param))
  | .keyword .order :: .keyword .by :: xs => readListed? SortKey.read? xs
  | xs => some ([], xs)

/-- The page and the end of a statement. -/
def pageLexemes (limit offset : Option Nat) : List (Lexeme Param) :=
  (limit.elim [] fun n => [.keyword .limit, .number n]) ++
    ((offset.elim [] fun n => [.keyword .offset, .number n]) ++ [.symbol .semicolon])

def readPage? : List (Lexeme Param) → Option (Option Nat × Option Nat)
  | [.symbol .semicolon] => some (none, none)
  | [.keyword .limit, .number n, .symbol .semicolon] => some (some n, none)
  | [.keyword .offset, .number k, .symbol .semicolon] => some (none, some k)
  | [.keyword .limit, .number n, .keyword .offset, .number k, .symbol .semicolon] =>
    some (some n, some k)
  | _ => none

theorem readPage?_lexemes (limit offset : Option Nat) :
    readPage? (pageLexemes limit offset) = some (limit, offset) := by
  cases limit <;> cases offset <;> rfl

theorem stops_pageLexemes (limit offset : Option Nat) : Stops (pageLexemes limit offset) := by
  cases limit <;> cases offset <;> simp [Stops, pageLexemes]

theorem readOrder?_lexemes {keys : List SortKey} (h : ∀ key ∈ keys, key.column ≠ [])
    (limit offset : Option Nat) :
    readOrder? (orderLexemes keys ++ pageLexemes limit offset) =
      some (keys, pageLexemes limit offset) := by
  cases keys with
  | nil => cases limit <;> cases offset <;> rfl
  | cons key keys =>
    exact readListed?_lexemes (List.cons_ne_nil key keys)
      (fun k hk => SortKey.read?_lexemes (h k hk)) (stops_pageLexemes limit offset)

/-! ## The whole statement -/

structure Selection where
  wanted : Wanted
  table : Path
  condition : Option (List (Lexeme Param))
  order : List SortKey
  limit : Option Nat
  offset : Option Nat

namespace Selection

/-- What comes behind the condition. -/
def tailLexemes (s : Selection) : List (Lexeme Param) :=
  orderLexemes s.order ++ pageLexemes s.limit s.offset

def lexemes (s : Selection) : List (Lexeme Param) :=
  .keyword .select :: (s.wanted.lexemes ++ .keyword .from ::
    (segmentsLexemes s.table ++ (conditionLexemes? s.condition ++ s.tailLexemes)))

def read? : List (Lexeme Param) → Option Selection
  | .keyword .select :: xs => do
    let (wanted, .keyword .from :: xs) ← Wanted.read? xs | none
    let (table, xs) ← readPath? xs
    let (condition, xs) := readCondition xs
    let (order, xs) ← readOrder? xs
    let (limit, offset) ← readPage? xs
    return ⟨wanted, table, condition, order, limit, offset⟩
  | _ => none

structure IsFilled (s : Selection) : Prop where
  table : s.table ≠ []
  condition : ∀ xs ∈ s.condition, ∀ x ∈ xs, x.continues = true
  order : ∀ key ∈ s.order, key.column ≠ []

/-- With the tail begins what is neither a name nor a condition. -/
theorem head?_tailLexemes (s : Selection) :
    ∀ x ∈ s.tailLexemes.head?, x.continues = false ∧ x ≠ .symbol .dot ∧ x ≠ .keyword .where := by
  obtain ⟨_, _, _, order, limit, offset⟩ := s
  cases order <;> cases limit <;> cases offset
  all_goals
    intro x hx
    obtain rfl := Option.some.inj hx
    exact ⟨rfl, by simp, by simp⟩

theorem read?_lexemes {s : Selection} (h : s.IsFilled) : read? s.lexemes = some s := by
  have hhead := s.head?_tailLexemes
  have hcondition := readCondition_lexemes h.condition (fun x hx => (hhead x hx).1)
    (fun hw => (hhead _ hw).2.2 rfl)
  have hdot : (conditionLexemes? s.condition ++ s.tailLexemes).head? ≠ some (.symbol .dot) := by
    cases s.condition with
    | none => exact fun hd => (hhead _ hd).2.1 rfl
    | some xs => simp [conditionLexemes?]
  have htable := readPath?_lexemes h.table _ hdot
  have hwanted := s.wanted.read?_lexemes (.keyword .from ::
    (segmentsLexemes s.table ++ (conditionLexemes? s.condition ++ s.tailLexemes))) (by simp)
  rw [lexemes, read?, hwanted]
  simp only [Option.bind_eq_bind, Option.bind_some, htable, hcondition]
  rw [tailLexemes, readOrder?_lexemes h.order, Option.bind_some, readPage?_lexemes]
  rfl

def ofCommand? (d : Dialect) (command : Command) : Option Selection :=
  (command.lexemes? d).bind read?

end Selection

/-! ## Filters as conditions -/

/-- A token that may stand inside of a condition. -/
def Token.continues : Token → Bool
  | word .orderBy | word .limit | word .offset | mark .semicolon => false
  | _ => true

theorem continues_of_mem_segmentsLexemes (ss : Path) :
    ∀ x ∈ segmentsLexemes ss, x.continues = true := by
  have hsegment : ∀ s, (segmentLexeme s).continues = true := by
    intro s
    unfold segmentLexeme
    split <;> rfl
  intro x hx
  fun_induction segmentsLexemes (ρ := Param) ss with
  | case1 => cases hx
  | case2 s =>
    obtain rfl := List.mem_singleton.mp hx
    exact hsegment s
  | case3 s ss _ ih =>
    rcases List.mem_cons.mp hx with rfl | hx
    · exact hsegment s
    rcases List.mem_cons.mp hx with rfl | hx
    · rfl
    · exact ih hx

theorem Token.continues_of_mem_lexemes {t : Token} (ht : t.continues = true) :
    ∀ x ∈ t.lexemes, x.continues = true := by
  cases t with
  | name s => exact continues_of_mem_segmentsLexemes _
  | word w => cases w <;> simp [continues] at ht <;> simp [lexemes, Word.keywords, Lexeme.continues]
  | mark m => cases m <;> simp [continues] at ht <;> simp [lexemes, Mark.symbols, Lexeme.continues]
  | operator c =>
    cases c <;> simp [lexemes, conditionLexemes, conditionSpelling, Lexeme.continues]
  | chain c => cases c <;> simp [lexemes, chainKeyword, Lexeme.continues]
  | direction d => cases d <;> simp [lexemes, directionKeyword, Lexeme.continues]
  | number n => simp [lexemes, Lexeme.continues]
  | param p => simp [lexemes, Lexeme.continues]

end Sql

namespace Sql.Fragment

def continues (f : Fragment) : Bool := f.all Token.continues

theorem continues_of_mem_lexemes {f : Fragment} (hf : f.continues = true) :
    ∀ x ∈ f.lexemes, x.continues = true := by
  intro x hx
  obtain ⟨t, ht, hx⟩ := List.mem_flatMap.mp hx
  exact Token.continues_of_mem_lexemes (List.all_eq_true.mp hf t ht) x hx

@[simp] theorem continues_nil : continues [] = true := rfl

@[simp] theorem continues_cons (t : Token) (f : Fragment) :
    continues (t :: f) = (t.continues && continues f) := rfl

@[simp] theorem continues_append (f g : Fragment) :
    continues (f ++ g) = (continues f && continues g) := List.all_append

theorem continues_intercalate {sep : Fragment} (hsep : continues sep = true)
    (parts : List Fragment) : continues (sep.intercalate parts) = parts.all continues := by
  induction parts with
  | nil => rfl
  | cons f parts ih =>
    cases parts with
    | nil => simp
    | cons g parts => simp [List.intercalate_cons_cons, hsep, ih]

@[simp] theorem continues_spaced (parts : List Fragment) :
    continues (spaced parts) = parts.all continues := continues_intercalate rfl parts

@[simp] theorem continues_listed (parts : List Fragment) :
    continues (listed parts) = parts.all continues := continues_intercalate rfl parts

@[simp] theorem continues_enclosed (f : Fragment) : continues (enclosed f) = continues f := by
  simp [enclosed, Token.continues]

@[simp] theorem continues_ofName (s : String) : continues (ofName s) = true := rfl

@[simp] theorem continues_ofParam (p : Param) : continues (ofParam p) = true := by cases p <;> rfl

@[simp] theorem continues_dated (b : Bool) (f : Fragment) : continues (dated b f) = continues f := by
  cases b with
  | false => rfl
  | true => simp [dated, call, Token.continues]

@[simp] theorem continues_truth (b : Bool) : continues (truth b) = true := by cases b <;> rfl

end Sql.Fragment

theorem Leaf.continues_sql (l : Leaf) : l.sql.continues = true := by
  have hcolumn : l.column.continues = true := by simp [column]
  have hbound : ∀ p, (l.bound p).continues = true := by simp [bound]
  unfold sql
  split <;> simp [hcolumn, hbound, Token.continues]

mutual
theorem Node.continues_sql : ∀ n : Node, n.sql.continues = true
  | .leaf l => by
      rw [Node.sql]
      exact l.continues_sql
  | .group _ [] => by
      rw [Node.sql]
      exact continues_truth true
  | .group _ (n :: rest) => by
      rw [Node.sql, continues_enclosed, continues_append, n.continues_sql,
        Node.continues_sqlRest rest]
      rfl
theorem Node.continues_sqlRest : ∀ rest : List Node, (Node.sqlRest rest).continues = true
  | [] => by
      rw [Node.sqlRest]
      rfl
  | n :: rest => by
      rw [Node.sqlRest]
      simp [Token.continues, n.continues_sql, Node.continues_sqlRest rest]
end

/-- The condition of a filter, with its values in their places. -/
def Sql.conditionOf (filter : List Node) : Option (List (Lexeme Param)) :=
  (condition? filter).map Fragment.lexemes

theorem Sql.continues_of_mem_conditionOf {filter : List Node} :
    ∀ xs ∈ conditionOf filter, ∀ x ∈ xs, x.continues = true := by
  intro xs hxs
  cases filter with
  | nil => cases hxs
  | cons n rest =>
    obtain rfl := Option.some.inj hxs
    exact continues_of_mem_lexemes (by simp [n.continues_sql, Node.continues_sqlRest rest])

/-! ## Statements of a configuration -/

def OrderTerm.sortKey (t : OrderTerm) : SortKey := ⟨Identifier.segments t.key, t.direction⟩

/-- The selection that a query asks of a table. -/
def Query.selection (q : Query) (table : String) : Selection where
  wanted := .rows
  table := Identifier.segments table
  condition := conditionOf q.filter
  order := q.order.map OrderTerm.sortKey
  limit := q.limit
  offset := q.offset

theorem Query.isFilled_selection (q : Query) (table : String) : (q.selection table).IsFilled := by
  refine ⟨Config.segments_ne_nil table, continues_of_mem_conditionOf, ?_⟩
  intro key hkey
  obtain ⟨t, -, rfl⟩ := List.mem_map.mp hkey
  exact Config.segments_ne_nil t.key

theorem lexemes_whereClause (filter : List Node) :
    (tail (whereClause filter)).lexemes = conditionLexemes? (conditionOf filter) := by
  unfold whereClause conditionOf
  cases condition? filter with
  | none => rfl
  | some f => simp [Fragment.tail, lexemes_spaced, ofWord, Token.lexemes, Mark.symbols,
      Word.keywords, conditionLexemes?]

theorem lexemes_order (order : List OrderTerm) :
    (tail (order? order)).lexemes = orderLexemes (order.map OrderTerm.sortKey) := by
  have hterm : ∀ t ∈ order, (orderTerm t).lexemes = t.sortKey.lexemes := by
    intro t _
    simp [orderTerm, lexemes_spaced, ofName, Token.lexemes, SortKey.lexemes, OrderTerm.sortKey]
  have hlist := lexemes_listed_map hterm
  cases order with
  | nil => rfl
  | cons t order =>
    change (tail (some (spaced [ofWord .orderBy, listed ((t :: order).map orderTerm)]))).lexemes = _
    simp only [Fragment.tail, lexemes_cons, lexemes_spaced, List.flatMap_cons, List.flatMap_nil,
      hlist, List.append_nil]
    rfl

theorem lexemes_page (limit offset : Option Nat) :
    (ended (tail (limit.map (counted .limit)) ++ tail (offset.map (counted .offset)))).lexemes =
      pageLexemes limit offset := by
  cases limit <;> cases offset <;> rfl

theorem lexemes_select (table : String) (q : Query) :
    (Sql.select table q).lexemes = (q.selection table).lexemes := by
  have htable : (Fragment.ofName table).lexemes =
      segmentsLexemes (Identifier.segments table) := List.append_nil _
  have hpage := lexemes_page q.limit q.offset
  have hparts : Sql.select table q =
      spaced [ofWord .select, [.mark .star], ofWord .source, ofName table] ++
        (tail (whereClause q.filter) ++ (tail (order? q.order) ++
          ended (tail (q.limit.map (counted .limit)) ++ tail (q.offset.map (counted .offset))))) := by
    simp [Sql.select, Sql.tail, ended]
  rw [hparts]
  simp only [lexemes_append, lexemes_whereClause, lexemes_order, hpage, lexemes_spaced,
    List.flatMap_cons, List.flatMap_nil, htable]
  simp [Selection.lexemes, Selection.tailLexemes, Query.selection, Wanted.lexemes, ofWord,
    Token.lexemes, Word.keywords, Mark.symbols]

namespace Config

/-- The selection that counts the rows of a filter. -/
def counting (c : Config) (filter : List Node) : Selection :=
  { Query.selection { filter := c.liveFilter filter } c.table with wanted := .number "count" }

theorem lexemes_count (c : Config) (filter : List Node) :
    (c.count filter).lexemes = (c.counting filter).lexemes := by
  have htable : (Fragment.ofName c.table).lexemes =
      segmentsLexemes (Identifier.segments c.table) := List.append_nil _
  have hname : (Fragment.ofName "count").lexemes = [.quoted "count".toList] :=
    lexemes_ofName (by decide)
  simp only [count, ended, lexemes_append, lexemes_whereClause, lexemes_spaced, List.flatMap_cons,
    List.flatMap_nil, htable, hname]
  simp [Selection.lexemes, Selection.tailLexemes, counting, Query.selection, Wanted.lexemes, ofWord,
    Token.lexemes, Word.keywords, Mark.symbols, call, enclosed, listed, orderLexemes, pageLexemes]

theorem lexemes?_select (c : Config) (q : Query) :
    (c.command (c.select q)).lexemes? c.dialect =
      some (Query.selection { q with filter := c.liveFilter q.filter } c.table).lexemes := by
  have hread := lexemes?_of_ended c
    (isClause_select c.table { q with filter := c.liveFilter q.filter })
  rw [lexemes_select] at hread
  exact hread

/-- The statement of a query reads as its selection among the shown rows. -/
theorem selection_select (c : Config) (q : Query) :
    Selection.ofCommand? c.dialect (c.command (c.select q)) =
      some (Query.selection { q with filter := c.liveFilter q.filter } c.table) := by
  rw [Selection.ofCommand?, lexemes?_select, Option.bind_some]
  exact Selection.read?_lexemes (Query.isFilled_selection _ c.table)

theorem selection_count (c : Config) (filter : List Node) :
    Selection.ofCommand? c.dialect (c.command (c.count filter)) = some (c.counting filter) := by
  have hfilled := Query.isFilled_selection { filter := c.liveFilter filter } c.table
  rw [Selection.ofCommand?, lexemes?_of_ended c (c.isClause_count filter), Option.bind_some,
    lexemes_count]
  exact Selection.read?_lexemes ⟨hfilled.table, hfilled.condition, hfilled.order⟩

end Config

end SingleTable
