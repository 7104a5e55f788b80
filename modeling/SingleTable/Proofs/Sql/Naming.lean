import SingleTable.Proofs.Sql.Insertion

/-! # Names in statements

Which tables and columns a statement names, told from its text.

* `paths`: the names among lexemes, each in its parts; `Command.paths?` finds those of a text.
* `paths_lexemes`: the names of a fragment are those of its tokens.
* `Config.Request.names`: names that stand in a statement whatever else it asks for;
  `Config.Request.mem_fragment` finds them in its tokens.
-/

namespace SingleTable
open Sql Sql.Fragment

namespace Sql

/-! ## Names among lexemes -/

theorem length_lt_of_readPath? {xs rest : List (Lexeme Param)} {path : Path}
    (h : readPath? xs = some (path, rest)) : rest.length < xs.length := by
  fun_induction readPath? xs generalizing path rest with
  | case1 s xs ih =>
    obtain ⟨⟨ss, rest'⟩, hss, he⟩ := Option.map_eq_some_iff.mp h
    obtain ⟨rfl, rfl⟩ := Prod.mk.inj he
    have hlen := ih hss
    simp only [List.length_cons]
    omega
  | case2 s rest' =>
    obtain ⟨rfl, rfl⟩ := Prod.mk.inj (Option.some.inj h)
    exact Nat.lt_succ_self _
  | case3 xs ih =>
    obtain ⟨⟨ss, rest'⟩, hss, he⟩ := Option.map_eq_some_iff.mp h
    obtain ⟨rfl, rfl⟩ := Prod.mk.inj he
    have hlen := ih hss
    simp only [List.length_cons]
    omega
  | case4 rest' =>
    obtain ⟨rfl, rfl⟩ := Prod.mk.inj (Option.some.inj h)
    exact Nat.lt_succ_self _
  | case5 => cases h

/-- The names among lexemes, from left to right. A star alone is a name as well. -/
def paths : List (Lexeme Param) → List Path
  | [] => []
  | x :: xs =>
    match _h : readPath? (x :: xs) with
    | some (path, rest) => path :: paths rest
    | none => paths xs
termination_by xs => xs.length
decreasing_by
  · exact length_lt_of_readPath? _h
  · exact Nat.lt_succ_self _

theorem paths_of_readPath? {xs rest : List (Lexeme Param)} {path : Path}
    (h : readPath? xs = some (path, rest)) : paths xs = path :: paths rest := by
  cases xs with
  | nil => cases h
  | cons x xs =>
    rw [paths]
    split
    · rename_i h'
      obtain ⟨rfl, rfl⟩ := Prod.mk.inj (Option.some.inj (h.symm.trans h'))
      rfl
    · rename_i h'
      cases h.symm.trans h'

/-- Lexemes that begin no name. -/
def Lexeme.IsApart : Lexeme Param → Prop
  | quoted _ | symbol .star => False
  | _ => True

theorem readPath?_of_isApart {x : Lexeme Param} (h : x.IsApart) (xs : List (Lexeme Param)) :
    readPath? (x :: xs) = none := by
  cases x with
  | quoted s => cases h
  | symbol s => cases s <;> first | rfl | cases h
  | _ => rfl

theorem paths_append_of_isApart {ys : List (Lexeme Param)} (h : ∀ y ∈ ys, y.IsApart)
    (xs : List (Lexeme Param)) : paths (ys ++ xs) = paths xs := by
  induction ys with
  | nil => rfl
  | cons y ys ih =>
    obtain ⟨hy, hys⟩ := List.forall_mem_cons.mp h
    rw [List.cons_append, paths]
    split
    · rename_i h'
      rw [readPath?_of_isApart hy] at h'
      cases h'
    · exact ih hys

/-! ## Names of tokens -/

/-- The names that a token is read as. -/
def Token.paths : Token → List Path
  | name s => [Identifier.segments s]
  | mark .star => [[['*']]]
  | _ => []

theorem Token.isApart_of_paths {t : Token} (h : t.paths = []) : ∀ x ∈ t.lexemes, x.IsApart := by
  cases t with
  | name s => cases h
  | mark m => cases m <;> simp [lexemes, Mark.symbols, Lexeme.IsApart, Token.paths] at h ⊢
  | word w => cases w <;> simp [lexemes, Word.keywords, Lexeme.IsApart]
  | operator c => cases c <;> simp [lexemes, conditionLexemes, conditionSpelling, Lexeme.IsApart]
  | _ => simp [lexemes, Lexeme.IsApart]

/-- No dot stands at the head of a token. -/
theorem head?_lexemes (f : Fragment) : f.lexemes.head? ≠ some (.symbol .dot) := by
  have hsegment : ∀ s : List Char, segmentLexeme (ρ := Param) s ≠ .symbol .dot := by
    intro s
    unfold segmentLexeme
    split <;> simp
  induction f with
  | nil => simp
  | cons t f ih =>
    rw [lexemes_cons]
    cases t with
    | word w => cases w <;> simp [Token.lexemes, Word.keywords]
    | mark m => cases m <;> simp [Token.lexemes, Mark.symbols, ih]
    | operator c => cases c <;> simp [Token.lexemes, conditionLexemes, conditionSpelling]
    | name s =>
      have hne : Identifier.segments s ≠ [] := List.splitOn_ne_nil '.' _
      obtain ⟨s', ss, hs⟩ := List.exists_cons_of_ne_nil hne
      cases ss <;> simp [Token.lexemes, hs, segmentsLexemes, hsegment]
    | _ => simp [Token.lexemes]

/-- **The names of a fragment are those of its tokens**, in their order. -/
theorem paths_lexemes (f : Fragment) : paths f.lexemes = f.flatMap Token.paths := by
  induction f with
  | nil => rw [lexemes_nil, paths, List.flatMap_nil]
  | cons t f ih =>
    have hdot := head?_lexemes f
    have hname : ∀ ss : Path, ss ≠ [] →
        paths (segmentsLexemes ss ++ Fragment.lexemes f) = ss :: f.flatMap Token.paths := by
      intro ss hss
      rw [paths_of_readPath? (readPath?_lexemes hss _ hdot), ih]
    rw [lexemes_cons, List.flatMap_cons]
    by_cases hother : t.paths = []
    · rw [paths_append_of_isApart (Token.isApart_of_paths hother), ih, hother, List.nil_append]
    · cases t with
      | name s => exact hname _ (List.splitOn_ne_nil '.' _)
      | mark m =>
        cases m with
        | star => exact hname [['*']] (List.cons_ne_nil _ _)
        | _ => exact absurd rfl hother
      | _ => exact absurd rfl hother

/-- The names in the text of a command. -/
def Command.paths? (d : Dialect) (command : Command) : Option (List Path) :=
  (command.lexemes? d).map paths

/-! ## Tokens of fragments put together -/

variable {t : Token} {f : Fragment}

theorem mem_intercalate {parts : List Fragment} (sep : Fragment) (hf : f ∈ parts) (ht : t ∈ f) :
    t ∈ sep.intercalate parts := by
  induction parts with
  | nil => cases hf
  | cons g parts ih =>
    cases parts with
    | nil =>
      obtain rfl := List.mem_singleton.mp hf
      simpa using ht
    | cons g' parts =>
      rw [List.intercalate_cons_cons, List.mem_append, List.mem_append]
      rcases List.mem_cons.mp hf with rfl | hf
      · exact .inl (.inl ht)
      · exact .inr (ih hf)

theorem mem_spaced {parts : List Fragment} (hf : f ∈ parts) (ht : t ∈ f) : t ∈ spaced parts :=
  mem_intercalate _ hf ht

theorem mem_tail {f? : Option Fragment} (hf : f ∈ f?) (ht : t ∈ f) : t ∈ Fragment.tail f? := by
  obtain rfl := Option.mem_def.mp hf
  exact List.mem_cons_of_mem _ ht

theorem name_mem_spaced {parts : List Fragment} {name : String} (h : ofName name ∈ parts) :
    .name name ∈ spaced parts := mem_spaced h List.mem_cons_self

/-- A comparison with one operand names its column. -/
theorem Leaf.name_mem_sql {l : Leaf} {x : Operand} (h : l.operand = .one x) : .name l.key ∈ l.sql := by
  have hcolumn : .name l.key ∈ l.column := by
    unfold Leaf.column dated
    split
    · simp [call, enclosed, listed, ofName]
    · exact List.mem_cons_self
  unfold Leaf.sql
  rw [h]
  split <;> first | exact mem_spaced List.mem_cons_self hcolumn | contradiction

theorem mem_sqlRest {n : Node} {ns : List Node} (hn : n ∈ ns) (ht : t ∈ n.sql) :
    t ∈ Node.sqlRest ns := by
  induction ns with
  | nil => cases hn
  | cons k ns ih =>
    rw [Node.sqlRest]
    rcases List.mem_cons.mp hn with rfl | hn
    · simp [ht]
    · simp [ih hn]

theorem mem_whereClause {n : Node} {filter : List Node} (hn : n ∈ filter) (ht : t ∈ n.sql) :
    t ∈ Fragment.tail (whereClause filter) := by
  cases filter with
  | nil => cases hn
  | cons k ns =>
    have hcondition : t ∈ k.sql ++ Node.sqlRest ns := by
      rw [List.mem_append]
      rcases List.mem_cons.mp hn with rfl | hn
      · exact .inl ht
      · exact .inr (mem_sqlRest hn ht)
    exact mem_tail rfl (mem_spaced (by simp) hcondition)

end Sql

/-! ## Names of requests -/

/-- The column of a node that is one comparison with one operand. -/
def Node.key? : Node → Option String
  | .leaf ⟨key, _, .one _, _, _⟩ => some key
  | _ => none

theorem Node.name_mem_sql {n : Node} {name : String} (h : n.key? = some name) : .name name ∈ n.sql := by
  unfold Node.key? at h
  split at h
  · obtain rfl := Option.some.inj h
    rw [Node.sql]
    exact Leaf.name_mem_sql rfl
  · cases h

namespace Config

/-- The names that a request brings into its statement, whatever its filter compares besides. -/
def Request.names (c : Config) : Request → List String
  | .query _ | .insert .. => [c.table]
  | .selectById _ => c.table :: c.idColumn :: c.softDeleteColumn?.toList
  | .select q => c.table :: (c.softDeleteColumn?.toList ++ q.order.map OrderTerm.key)
  | .count _ => c.table :: c.softDeleteColumn?.toList
  | .update _ _ filter _ => c.table :: filter.filterMap Node.key?
  | .hardDelete _ => [c.table, c.idColumn]
  | .setDeleted deleted _ _ => [c.table, deleted, c.idColumn]

variable {c : Config}

/-- The test for missing deletion names its column. -/
theorem mem_liveFilter {deleted : String} (h : c.softDeleteColumn? = some deleted)
    (filter : List Node) :
    .name deleted ∈ Fragment.tail (whereClause (c.liveFilter filter)) := by
  refine mem_whereClause (n := .leaf (.isNull deleted .and)) ?_ (Node.name_mem_sql rfl)
  unfold liveFilter
  rw [h]
  simp

theorem mem_matching (column : String) (p : Param) : .name column ∈ matching column p :=
  name_mem_spaced List.mem_cons_self

theorem mem_order {q : Query} {name : String} (h : name ∈ q.order.map OrderTerm.key) :
    .name name ∈ Sql.tail q := by
  obtain ⟨term, hterm, rfl⟩ := List.mem_map.mp h
  have hne : ¬ q.order.isEmpty = true := by
    rw [List.isEmpty_iff]
    exact List.ne_nil_of_mem hterm
  have horder : .name term.key ∈ Fragment.tail (order? q.order) := by
    rw [order?, if_neg hne]
    refine mem_tail rfl (mem_spaced (f := Fragment.listed (q.order.map orderTerm)) (by simp) ?_)
    exact mem_intercalate _ (List.mem_map_of_mem hterm) (name_mem_spaced List.mem_cons_self)
  unfold Sql.tail
  exact List.mem_append_left _ (List.mem_append_left _ horder)

theorem mem_select (table : String) (q : Query) : .name table ∈ Sql.select table q := by
  have hhead : .name table ∈
      spaced [ofWord .select, [.mark .star], ofWord .source, ofName table] :=
    name_mem_spaced (by simp)
  unfold Sql.select ended
  exact List.mem_append_left _ (List.mem_append_left _ (List.mem_append_left _ hhead))

theorem mem_selectById {id : Param} {name : String}
    (h : name ∈ c.table :: c.idColumn :: c.softDeleteColumn?.toList) :
    .name name ∈ c.selectById id := by
  unfold selectById ended
  simp only [List.mem_append]
  simp only [List.mem_cons, Option.mem_toList] at h
  obtain rfl | rfl | h := h
  · exact .inl (.inl (.inl (name_mem_spaced (by simp))))
  · refine .inl (.inl (.inl (mem_spaced ?_ (mem_matching c.idColumn id))))
    simp
  · refine .inl (.inl (.inr (mem_tail (Option.mem_map.mpr ⟨name, h, rfl⟩) ?_)))
    exact name_mem_spaced (by simp)

theorem mem_update {catalog : Catalog} {data : Record} {filter : List Node}
    {returning : List String} {f : Fragment} (h : c.update catalog data filter returning = .ok f)
    {name : String} (hname : name ∈ c.table :: filter.filterMap Node.key?) : .name name ∈ f := by
  unfold update at h
  split at h
  · cases h
  · obtain rfl := Except.ok.inj h
    unfold ended
    simp only [List.mem_append]
    rcases List.mem_cons.mp hname with rfl | hname
    · exact .inl (.inl (.inl (name_mem_spaced (by simp))))
    · obtain ⟨n, hn, hkey⟩ := List.mem_filterMap.mp hname
      exact .inl (.inl (.inr (mem_whereClause hn (Node.name_mem_sql hkey))))

theorem mem_insert {catalog : Catalog} {rows : List Record} {returning : List String}
    {f : Fragment} (h : c.insert catalog rows returning = .ok f) : .name c.table ∈ f := by
  unfold insert at h
  split at h
  · cases h
  · obtain rfl := Except.ok.inj h
    unfold ended
    exact List.mem_append_left _ (List.mem_append_left _ (name_mem_spaced (by simp)))

/-- **The names of a request stand in its statement.** -/
theorem mem_fragment {r : Request} {f : Fragment} (h : c.fragment r = .ok f) {name : String}
    (hname : name ∈ r.names c) : .name name ∈ f := by
  cases r with
  | query q =>
    obtain rfl := Except.ok.inj h
    obtain rfl := List.mem_singleton.mp hname
    exact mem_select c.table q
  | selectById id =>
    obtain rfl := Except.ok.inj h
    exact mem_selectById hname
  | select q =>
    obtain rfl := Except.ok.inj h
    simp only [Request.names, List.mem_cons, List.mem_append, Option.mem_toList] at hname
    obtain rfl | hdeleted | horder := hname
    · exact mem_select c.table _
    · have hfilter := mem_liveFilter hdeleted q.filter
      unfold select Sql.select ended
      exact List.mem_append_left _ (List.mem_append_left _ (List.mem_append_right _ hfilter))
    · have htail := mem_order (q := { q with filter := c.liveFilter q.filter }) horder
      unfold select Sql.select ended
      exact List.mem_append_left _ (List.mem_append_right _ htail)
  | count filter =>
    obtain rfl := Except.ok.inj h
    simp only [Request.names, List.mem_cons, Option.mem_toList] at hname
    unfold count ended
    obtain rfl | hdeleted := hname
    · exact List.mem_append_left _ (List.mem_append_left _ (name_mem_spaced (by simp)))
    · exact List.mem_append_left _ (List.mem_append_right _ (mem_liveFilter hdeleted filter))
  | insert catalog rows returning =>
    obtain rfl := List.mem_singleton.mp hname
    exact mem_insert h
  | update catalog data filter returning => exact mem_update h hname
  | hardDelete id =>
    obtain rfl := Except.ok.inj h
    simp only [Request.names, List.mem_cons, List.not_mem_nil, or_false] at hname
    obtain rfl | rfl := hname
    · exact List.mem_append_left _ (name_mem_spaced (by simp))
    · exact List.mem_append_left _ (mem_spaced (by simp) (mem_matching c.idColumn id))
  | setDeleted deleted deletion id =>
    obtain rfl := Except.ok.inj h
    simp only [Request.names, List.mem_cons, List.not_mem_nil, or_false] at hname
    obtain rfl | rfl | rfl := hname
    · exact List.mem_append_left _ (name_mem_spaced (by simp))
    · exact List.mem_append_left _ (mem_spaced (by simp) (mem_matching name deletion))
    · exact List.mem_append_left _ (mem_spaced (by simp) (mem_matching c.idColumn id))

/-- A statement is read as naming what its request names. -/
theorem exists_paths {r : Request} {command : Command} (h : c.statement r = .ok command) :
    ∃ ps, command.paths? c.dialect = some ps ∧
      ∀ name ∈ r.names c, Identifier.segments name ∈ ps := by
  rw [statement_eq_map] at h
  obtain ⟨f, hf, rfl⟩ := exists_of_map_ok h
  refine ⟨f.flatMap Token.paths, ?_, fun name hname => ?_⟩
  · rw [Command.paths?, lexemes?_of_ended c (fragment_eq_ended hf), Option.map_some, paths_lexemes]
  · exact List.mem_flatMap.mpr ⟨.name name, mem_fragment hf hname, List.mem_cons_self⟩

end Config

end SingleTable
