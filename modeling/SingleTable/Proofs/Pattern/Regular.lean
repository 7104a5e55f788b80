import SingleTable.Pattern.Expression
import SingleTable.Proofs.Pattern.Wildcards

/-! # LIKE patterns as regular expressions

The text of a pattern's regular expression is read back piece by piece, and matching it visits the
positions of the text at which the pieces fit.

* `Like.regular`: the expression that pieces stand for.
* `Like.read?_expression`: reading the text of a pattern's expression gives that expression.
* `Like.search_expression`: searching with that text finds what the pattern holds of.
-/

namespace SingleTable.Like
open Expression

/-! ## Reading back -/

def Piece.regular : Piece → Expression
  | run => .repeated (.set fun _ => true)
  | one => .set fun _ => true
  | literal c => .set fun d => d == c

/-- The pieces one after the other, up to the end of the text. -/
def regular (ps : List Piece) : Expression :=
  ps.foldr (fun p e => .sequence p.regular e) (.sequence .finish .empty)

/-- A special character stands behind a backslash, any other for itself. -/
theorem escape_cases (c : Char) :
    c ∈ special ∧ escape c = ['\\', c] ∨ c ∉ special ∧ escape c = [c] := by
  by_cases h : c ∈ special
  · exact .inl ⟨h, if_pos (List.contains_iff_mem.mpr h)⟩
  · exact .inr ⟨h, if_neg (mt List.contains_iff_mem.mp h)⟩

theorem mem_special_of_mem_operators {c : Char} (h : c ∈ operators) : c ∈ special := by
  have hall : operators.all special.contains = true := by decide
  exact List.contains_iff_mem.mp (List.all_eq_true.mp hall c h)

theorem items_literal {c : Char} (h : c ∉ operators) (cs : List Char) :
    items true (c :: cs) = (items true cs).map (.sequence (literal c)) := by
  have hne : ∀ d ∈ operators, c ≠ d := fun d hd hc => h (hc ▸ hd)
  rw [items, if_neg (mt List.contains_iff_mem.mp h)]
  · exact hne '^' (by decide)
  · exact hne '$' (by decide)
  · exact fun _ hc _ => hne '.' (by decide) hc
  · exact hne '.' (by decide)
  · exact fun _ _ hc _ => hne '\\' (by decide) hc

theorem items_escape (c : Char) (cs : List Char) :
    items true (escape c ++ cs) = (items true cs).map (.sequence (literal c)) := by
  rcases escape_cases c with ⟨h, hescape⟩ | ⟨h, hescape⟩
  · rw [hescape, List.cons_append, List.cons_append, List.nil_append, items,
      if_pos (List.contains_iff_mem.mpr h)]
  · rw [hescape, List.cons_append, List.nil_append,
      items_literal (mt mem_special_of_mem_operators h)]

/-- What is written for pieces never begins with a star, so a dot before it is a single one. -/
theorem head?_expressions_ne (ps : List Piece) :
    (ps.flatMap Piece.expression ++ ['$']).head? ≠ some '*' := by
  cases ps with
  | nil => decide
  | cons p ps =>
    rw [List.flatMap_cons, List.append_assoc]
    cases p with
    | run => exact mt Option.some.inj (by decide)
    | one => exact mt Option.some.inj (by decide)
    | literal c =>
      rw [Piece.expression]
      rcases escape_cases c with ⟨-, hescape⟩ | ⟨h, hescape⟩
      · rw [hescape]
        exact mt Option.some.inj (by decide)
      · rw [hescape]
        rintro hc
        exact h (Option.some.inj hc ▸ by decide)

theorem items_dot {cs : List Char} (h : cs.head? ≠ some '*') :
    items true ('.' :: cs) = (items true cs).map (.sequence (dot true)) := by
  rw [items]
  rintro cs' rfl
  exact h rfl

theorem items_expressions (ps : List Piece) :
    items true (ps.flatMap Piece.expression ++ ['$']) = some (regular ps) := by
  induction ps with
  | nil => rfl
  | cons p ps ih =>
    rw [List.flatMap_cons, List.append_assoc]
    cases p with
    | run =>
      rw [Piece.expression, List.cons_append, List.cons_append, List.nil_append, items, ih]
      rfl
    | one =>
      rw [Piece.expression, List.cons_append, List.nil_append, items_dot (head?_expressions_ne ps),
        ih]
      rfl
    | literal c =>
      rw [Piece.expression, items_escape, ih]
      rfl

theorem toList_expression (pattern : String) : (expression pattern).toList =
    '(' :: '?' :: 's' :: ')' :: '^' ::
      ((pieces pattern.toList).flatMap Piece.expression ++ ['$']) :=
  String.toList_ofList

/-- The text of a pattern's expression reads as the expression of its pieces. -/
theorem read?_expression (pattern : String) :
    read? (expression pattern) = some (.sequence .start (regular (pieces pattern.toList))) := by
  rw [read?, toList_expression]
  simp only [items, items_expressions, Option.map_some]

/-! ## Matching -/

variable {text : Array Char}

theorem mem_ends_set (p : Char → Bool) (is : List Nat) (j : Nat) :
    j ∈ ends text (.set p) is ↔ ∃ i ∈ is, (∃ c, text[i]? = some c ∧ p c = true) ∧ i + 1 = j := by
  simp [ends, Option.any_eq_true, and_assoc]

/-- One step over any character goes one position on, up to the end of the text. -/
theorem mem_ends_any (is : List Nat) (j : Nat) :
    j ∈ ends text (.set fun _ => true) is ↔ ∃ i ∈ is, i < text.size ∧ i + 1 = j := by
  rw [mem_ends_set]
  refine exists_congr fun i => and_congr_right fun _ => and_congr_left fun _ => ?_
  simp [← Option.isSome_iff_exists]

theorem mem_within_any (n : Nat) (is : List Nat) (j : Nat) :
    j ∈ within (ends text (.set fun _ => true)) n is ↔
      ∃ i ∈ is, i ≤ j ∧ j ≤ i + n ∧ (i = j ∨ j ≤ text.size) := by
  induction n generalizing is with
  | zero =>
    constructor
    · exact fun h => ⟨j, h, Nat.le_refl j, Nat.le_refl j, .inl rfl⟩
    · rintro ⟨i, hi, hij, hji, -⟩
      rwa [Nat.le_antisymm hji hij]
  | succ n ih =>
    rw [within, ih]
    simp only [List.mem_eraseDups, List.mem_append, mem_ends_any]
    constructor
    · rintro ⟨i, hi | ⟨i, hi, hsize, rfl⟩, hij, hji, hj⟩
      · exact ⟨i, hi, hij, by omega, hj⟩
      · exact ⟨i, hi, by omega, by omega, .inr (by omega)⟩
    · rintro ⟨i, hi, hij, hji, hj⟩
      by_cases h : i = j
      · exact ⟨i, .inl hi, hij, by omega, hj⟩
      · exact ⟨i + 1, .inr ⟨i, hi, by omega, rfl⟩, by omega, by omega, by omega⟩

theorem mem_ends_run (is : List Nat) (j : Nat) :
    j ∈ ends text Piece.run.regular is ↔ ∃ i ∈ is, i ≤ j ∧ (i = j ∨ j ≤ text.size) := by
  change j ∈ within (ends text (.set fun _ => true)) (text.size + 1) is ↔ _
  rw [mem_within_any]
  constructor
  · rintro ⟨i, hi, hij, -, hj⟩
    exact ⟨i, hi, hij, hj⟩
  · rintro ⟨i, hi, hij, hj⟩
    exact ⟨i, hi, hij, by omega, hj⟩

theorem drop_eq_cons_iff (cs : List Char) (i : Nat) (c : Char) (rest : List Char) :
    cs.drop i = c :: rest ↔ cs[i]? = some c ∧ rest = cs.drop (i + 1) := by
  rw [← List.head?_drop, ← List.tail_drop]
  cases cs.drop i with
  | nil => simp
  | cons d rest' => simp [eq_comm]

/-- A piece leads from the positions at which it fits to those at which the others must fit. -/
theorem exists_mem_ends_iff (p : Piece) (ps : List Piece) (is : List Nat) :
    (∃ j ∈ ends text p.regular is, j ≤ text.size ∧ fits ps (text.toList.drop j) = true) ↔
      ∃ i ∈ is, i ≤ text.size ∧ fits (p :: ps) (text.toList.drop i) = true := by
  cases p with
  | run =>
    simp only [mem_ends_run, fits_run_iff]
    constructor
    · rintro ⟨j, ⟨i, hi, hij, -⟩, hj, hfits⟩
      have hsplit := List.take_append_drop (j - i) (text.toList.drop i)
      rw [List.drop_drop, Nat.add_sub_of_le hij] at hsplit
      exact ⟨i, hi, Nat.le_trans hij hj, _, _, hsplit.symm, hfits⟩
    · rintro ⟨i, hi, hsize, skipped, rest, h, hfits⟩
      have hlength := congrArg List.length h
      have hrest := congrArg (List.drop skipped.length) h
      rw [List.drop_drop, List.drop_left] at hrest
      rw [List.length_drop, List.length_append, Array.length_toList] at hlength
      exact ⟨i + skipped.length, ⟨i, hi, Nat.le_add_right _ _, .inr (by omega)⟩, by omega,
        hrest ▸ hfits⟩
  | one =>
    simp only [Piece.regular, mem_ends_any, fits_one_iff, drop_eq_cons_iff]
    constructor
    · rintro ⟨j, ⟨i, hi, hsize, rfl⟩, -, hfits⟩
      exact ⟨i, hi, Nat.le_of_lt hsize, text[i], _, ⟨by simp [hsize], rfl⟩, hfits⟩
    · rintro ⟨i, hi, -, c, rest, ⟨hc, rfl⟩, hfits⟩
      rw [Array.getElem?_toList] at hc
      obtain ⟨hsize, -⟩ := Array.getElem?_eq_some_iff.mp hc
      exact ⟨i + 1, ⟨i, hi, hsize, rfl⟩, hsize, hfits⟩
  | literal c =>
    simp only [Piece.regular, mem_ends_set, fits_literal_iff, drop_eq_cons_iff]
    constructor
    · rintro ⟨j, ⟨i, hi, ⟨d, hd, hdc⟩, rfl⟩, hj, hfits⟩
      rw [eq_of_beq hdc, ← Array.getElem?_toList] at hd
      exact ⟨i, hi, Nat.le_of_succ_le hj, _, ⟨hd, rfl⟩, hfits⟩
    · rintro ⟨i, hi, -, rest, ⟨hc, rfl⟩, hfits⟩
      rw [Array.getElem?_toList] at hc
      obtain ⟨hsize, -⟩ := Array.getElem?_eq_some_iff.mp hc
      exact ⟨i + 1, ⟨i, hi, ⟨c, hc, beq_self_eq_true c⟩, rfl⟩, hsize, hfits⟩

/-- Some match ends at the end of the text when all pieces fit at one of the positions. -/
theorem exists_mem_regular_iff (ps : List Piece) (is : List Nat) :
    (∃ j, j ∈ ends text (regular ps) is) ↔
      ∃ i ∈ is, i ≤ text.size ∧ fits ps (text.toList.drop i) = true := by
  induction ps generalizing is with
  | nil =>
    simp only [fits_nil_iff, List.drop_eq_nil_iff, Array.length_toList]
    change (∃ j, j ∈ is.filter (· == text.size)) ↔ _
    simp only [List.mem_filter, beq_iff_eq]
    exact exists_congr fun i => and_congr_right fun _ =>
      ⟨fun h => ⟨Nat.le_of_eq h, Nat.le_of_eq h.symm⟩, fun h => Nat.le_antisymm h.1 h.2⟩
  | cons p ps ih =>
    change (∃ j, j ∈ ends text (regular ps) (ends text p.regular is)) ↔ _
    rw [ih, exists_mem_ends_iff]

/-- **The expression written for a pattern finds the texts that the pattern holds of**, whatever
characters stand in them. -/
theorem search_expression (text pattern : String) :
    search text (expression pattern) = holds pattern text := by
  rw [search, read?_expression, holds, Bool.eq_iff_iff]
  change (!List.isEmpty _) = true ↔ _
  rw [Bool.not_eq_true', List.isEmpty_eq_false_iff_exists_mem]
  change (∃ j, j ∈ ends _ (regular _) (List.filter _ _)) ↔ _
  rw [exists_mem_regular_iff]
  constructor
  · rintro ⟨i, hi, -, hfits⟩
    obtain rfl := eq_of_beq (List.mem_filter.mp hi).2
    exact hfits
  · intro hfits
    have hzero : 0 ∈ (List.range (text.toList.toArray.size + 1)).filter (· == 0) :=
      List.mem_filter.mpr ⟨List.mem_range.mpr (Nat.succ_pos _), rfl⟩
    exact ⟨0, hzero, Nat.zero_le _, hfits⟩

end SingleTable.Like
