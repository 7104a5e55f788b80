import Mathlib.Data.List.Chain
import SingleTable.Proofs.Sql.Lexeme
import SingleTable.Sql.Fragment

/-! # Reading back what is written

* `Token.lexemes`, `Fragment.lexemes`: what a fragment is made of, with the values themselves in the
  places of their placeholders.
* `numbered`: the same with the placeholders that a dialect shows.
* `Fragment.IsClause`: a part of a statement in which marks keep all other tokens apart; kept by
  every way of putting fragments together.
* `lex_write`: the text of a clause is read back as its numbered lexemes.
-/

namespace SingleTable
open Text

/-! ## The lexemes of fragments -/

namespace Sql

def Word.keywords : Word → List Keyword
  | select => [.select]
  | source => [.from]
  | .where => [.where]
  | orderBy => [.order, .by]
  | limit => [.limit]
  | offset => [.offset]
  | count => [.count]
  | named => [.as]
  | insertInto => [.insert, .into]
  | values => [.values]
  | update => [.update]
  | assign => [.set]
  | deleteFrom => [.delete, .from]
  | returning => [.returning]
  | default => [.default]
  | date => [.date]
  | point => [.point]

/-- A blank is no symbol. -/
def Mark.symbols : Mark → List Symbol
  | blank => []
  | .open => [.open]
  | close => [.close]
  | comma => [.comma]
  | semicolon => [.semicolon]
  | star => [.star]

def chainKeyword : Chain → Keyword
  | .and => .and
  | .or => .or

def directionKeyword : Direction → Keyword
  | .ascending => .asc
  | .descending => .desc

/-- A comparison is a mark of its own, every other condition a phrase. -/
def conditionSpelling : Condition → Comparison ⊕ List Keyword
  | .equals => .inl .equals
  | .notEquals => .inl .notEquals
  | .greater => .inl .greater
  | .less => .inl .less
  | .greaterOrEqual => .inl .greaterOrEqual
  | .lessOrEqual => .inl .lessOrEqual
  | .like => .inr [.like]
  | .notLike => .inr [.not, .like]
  | .isIn => .inr [.in]
  | .isNull => .inr [.is, .null]
  | .isNotNull => .inr [.is, .not, .null]

section Lexemes
variable {ρ : Type}

def conditionLexemes (c : Condition) : List (Lexeme ρ) :=
  match conditionSpelling c with
  | .inl x => [.comparison x]
  | .inr ks => ks.map .keyword

def segmentLexeme (segment : List Char) : Lexeme ρ :=
  if segment = ['*'] then .symbol .star else .quoted segment

/-- Segments with dots between them. -/
def segmentsLexemes : List (List Char) → List (Lexeme ρ)
  | [] => []
  | [s] => [segmentLexeme s]
  | s :: ss => segmentLexeme s :: .symbol .dot :: segmentsLexemes ss

end Lexemes

def Token.lexemes : Token → List (Lexeme Param)
  | word w => w.keywords.map .keyword
  | mark m => m.symbols.map .symbol
  | operator c => conditionLexemes c
  | chain c => [.keyword (chainKeyword c)]
  | direction d => [.keyword (directionKeyword d)]
  | name s => segmentsLexemes (Identifier.segments s)
  | number n => [.number n]
  | param p => [.placeholder p]

namespace Fragment

def lexemes (f : Fragment) : List (Lexeme Param) := f.flatMap Token.lexemes

@[simp] theorem lexemes_nil : lexemes [] = [] := rfl

@[simp] theorem lexemes_cons (t : Token) (f : Fragment) :
    lexemes (t :: f) = t.lexemes ++ lexemes f := rfl

@[simp] theorem lexemes_append (f g : Fragment) : lexemes (f ++ g) = lexemes f ++ lexemes g :=
  List.flatMap_append

theorem lexemes_intercalate (sep f : Fragment) (parts : List Fragment) :
    lexemes (sep.intercalate (f :: parts)) =
      lexemes f ++ parts.flatMap fun g => lexemes sep ++ lexemes g := by
  induction parts generalizing f with
  | nil => simp
  | cons g parts ih =>
    rw [List.intercalate_cons_cons, lexemes_append, lexemes_append, ih, List.flatMap_cons,
      List.append_assoc, List.append_assoc]

theorem lexemes_spaced (parts : List Fragment) : lexemes (spaced parts) = parts.flatMap lexemes := by
  cases parts with
  | nil => rfl
  | cons f parts => exact lexemes_intercalate _ f parts

theorem lexemes_listed (f : Fragment) (parts : List Fragment) :
    lexemes (listed (f :: parts)) = lexemes f ++ parts.flatMap fun g => .symbol .comma :: lexemes g :=
  lexemes_intercalate _ f parts

theorem lexemes_enclosed (f : Fragment) :
    lexemes (enclosed f) = .symbol .open :: (lexemes f ++ [.symbol .close]) := by
  simp [enclosed, Token.lexemes, Mark.symbols]

theorem lexemes_ofName {name : String} (h : Identifier.IsWord name) :
    lexemes (ofName name) = [.quoted name.toList] := by
  have hstar : name.toList ≠ ['*'] := by
    intro hs
    have hc := h.forall_mem '*' (by rw [hs]; exact List.mem_cons_self)
    cases hc
  simp [ofName, Token.lexemes, Identifier.segments_of_isWord h, segmentsLexemes, segmentLexeme,
    hstar]

theorem lexemes_ofParam {p : Param} (h : p ≠ .default) :
    lexemes (ofParam p) = [.placeholder p] := by
  cases p <;> first | rfl | exact absurd rfl h

end Fragment

/-! ## Placeholders -/

section Placeholders
variable {ρ : Type}

def placeholders (xs : List (Lexeme ρ)) : List ρ := xs.filterMap Lexeme.placeholder?

@[simp] theorem placeholders_append (xs ys : List (Lexeme ρ)) :
    placeholders (xs ++ ys) = placeholders xs ++ placeholders ys := List.filterMap_append

/-- Lexemes as a dialect shows them, before which `bound` placeholders have been numbered. -/
def numbered (d : Dialect) : Nat → List (Lexeme ρ) → List (Lexeme (Option Nat))
  | _, [] => []
  | bound, x :: xs =>
    x.map (fun _ => numeral d (bound + 1)) ::
      numbered d (if x.placeholder?.isSome then bound + 1 else bound) xs

theorem numbered_append (d : Dialect) (bound : Nat) (xs ys : List (Lexeme ρ)) :
    numbered d bound (xs ++ ys) =
      numbered d bound xs ++ numbered d (bound + (placeholders xs).length) ys := by
  induction xs generalizing bound with
  | nil => rfl
  | cons x xs ih =>
    rw [List.cons_append, numbered, numbered, ih, List.cons_append]
    cases x with
    | placeholder x =>
      have h : bound + 1 + (placeholders xs).length =
          bound + (placeholders (Lexeme.placeholder x :: xs)).length := by
        simp only [placeholders, List.filterMap_cons, Lexeme.placeholder?, List.length_cons]
        omega
      rw [Lexeme.placeholder?, Option.isSome_some, if_pos rfl, h]
    | _ => rfl

/-- What holds no placeholder is shown as it is. -/
theorem numbered_of_placeholders_nil {d : Dialect} {bound : Nat} {xs : List (Lexeme ρ)}
    (h : placeholders xs = []) :
    numbered d bound xs = xs.map (Lexeme.map fun _ => none) := by
  induction xs with
  | nil => rfl
  | cons x xs ih =>
    cases x with
    | placeholder x => cases h
    | _ =>
      rw [numbered, List.map_cons]
      exact congrArg _ (ih h)

/-- The numbers `bound + 1`, `bound + 2`, and so on, as a dialect shows them. -/
def numerals (d : Dialect) (bound n : Nat) : List (Option Nat) :=
  (List.range' (bound + 1) n).map (numeral d)

theorem placeholders_numbered (d : Dialect) (bound : Nat) (xs : List (Lexeme ρ)) :
    placeholders (numbered d bound xs) = numerals d bound (placeholders xs).length := by
  induction xs generalizing bound with
  | nil => rfl
  | cons x xs ih =>
    cases x with
    | placeholder x =>
      have h := ih (bound + 1)
      simp only [placeholders, numbered, numerals, Lexeme.map, Lexeme.placeholder?,
        Option.isSome_some, if_true, List.filterMap_cons, List.length_cons, List.range'_succ,
        List.map_cons] at h ⊢
      rw [h]
    | _ => exact ih bound

end Placeholders

/-- A fragment's values stand where its placeholders stand. -/
theorem placeholders_segmentsLexemes {ρ : Type} (ss : List (List Char)) :
    placeholders (segmentsLexemes (ρ := ρ) ss) = [] := by
  have hs : ∀ s, Lexeme.placeholder? (segmentLexeme (ρ := ρ) s) = none := by
    intro s
    unfold segmentLexeme
    split <;> rfl
  fun_induction segmentsLexemes (ρ := ρ) ss with
  | case1 => rfl
  | case2 s => simp [placeholders, hs]
  | case3 s ss _ ih =>
    unfold placeholders at ih ⊢
    rw [List.filterMap_cons_none (hs s)]
    exact ih

theorem map_segmentsLexemes {ρ σ : Type} (f : ρ → σ) (ss : List (List Char)) :
    (segmentsLexemes ss).map (Lexeme.map f) = segmentsLexemes ss := by
  have hs : ∀ s, Lexeme.map f (segmentLexeme s) = segmentLexeme s := by
    intro s
    unfold segmentLexeme
    split <;> rfl
  induction ss with
  | nil => rfl
  | cons s ss ih =>
    cases ss with
    | nil => rw [segmentsLexemes, segmentsLexemes, List.map_singleton, hs]
    | cons s' ss =>
      change Lexeme.map f (segmentLexeme s) :: .symbol .dot ::
        (segmentsLexemes (s' :: ss)).map (Lexeme.map f) = _
      rw [hs, ih]
      rfl

theorem Token.placeholders_lexemes (t : Token) : placeholders t.lexemes = t.param?.toList := by
  cases t with
  | word w => cases w <;> rfl
  | mark m => cases m <;> rfl
  | operator c => cases c <;> rfl
  | name s => exact placeholders_segmentsLexemes _
  | _ => rfl

theorem Fragment.placeholders_lexemes (f : Fragment) : placeholders f.lexemes = f.params := by
  induction f with
  | nil => rfl
  | cons t f ih =>
    rw [lexemes_cons, placeholders_append, ih, t.placeholders_lexemes]
    cases h : t.param? <;> simp [params, h]

/-! ## Clauses -/

def Token.IsMark : Token → Prop
  | mark _ => True
  | _ => False

/-- Of two tokens side by side one is a mark. -/
def Apart (s t : Token) : Prop := s.IsMark ∨ t.IsMark

/-- A part of a statement: marks keep its other tokens apart, and it does not end the statement. -/
structure Fragment.IsClause (f : Fragment) : Prop where
  apart : f.IsChain Apart
  unended : .mark .semicolon ∉ f

namespace Fragment

theorem IsClause.nil : IsClause [] := ⟨.nil, List.not_mem_nil⟩

theorem IsClause.singleton {t : Token} (h : t ≠ .mark .semicolon) : IsClause [t] :=
  ⟨.singleton t, by simpa using h.symm⟩

theorem IsClause.append {f g : Fragment} (hf : IsClause f) (hg : IsClause g)
    (h : ∀ s ∈ f.getLast?, ∀ t ∈ g.head?, Apart s t) : IsClause (f ++ g) := by
  refine ⟨hf.apart.append hg.apart h, ?_⟩
  rw [List.mem_append, not_or]
  exact ⟨hf.unended, hg.unended⟩

/-- A mark in front of a clause, which separates it from anything before it. -/
theorem IsClause.cons_mark {f : Fragment} (hf : IsClause f) {m : Mark} (hm : m ≠ .semicolon) :
    IsClause (.mark m :: f) := by
  refine ⟨List.isChain_cons.mpr ⟨fun t _ => .inl trivial, hf.apart⟩, ?_⟩
  rw [List.mem_cons, not_or]
  exact ⟨fun h => hm (Token.mark.inj h).symm, hf.unended⟩

theorem IsClause.append_mark {f g : Fragment} (hf : IsClause f) {m : Mark}
    (hg : IsClause (.mark m :: g)) : IsClause (f ++ .mark m :: g) := by
  refine hf.append hg ?_
  rintro s - t ht
  obtain rfl := Option.some.inj ht
  exact .inr trivial

theorem IsClause.intercalate {sep : Fragment} {parts : List Fragment}
    (hsep : ∀ f g, IsClause f → IsClause g → IsClause (f ++ (sep ++ g)))
    (h : ∀ f ∈ parts, IsClause f) : IsClause (sep.intercalate parts) := by
  induction parts with
  | nil => exact .nil
  | cons f parts ih =>
    have hf := h f List.mem_cons_self
    have hrest := ih fun g hg => h g (List.mem_cons_of_mem f hg)
    cases parts with
    | nil => simpa using hf
    | cons g parts =>
      rw [List.intercalate_cons_cons, List.append_assoc]
      exact hsep f _ hf hrest

theorem IsClause.spaced {parts : List Fragment} (h : ∀ f ∈ parts, IsClause f) :
    IsClause (Fragment.spaced parts) := by
  refine IsClause.intercalate (fun f g hf hg => ?_) h
  exact hf.append_mark (hg.cons_mark (by decide))

theorem IsClause.listed {parts : List Fragment} (h : ∀ f ∈ parts, IsClause f) :
    IsClause (Fragment.listed parts) := by
  refine IsClause.intercalate (fun f g hf hg => ?_) h
  exact hf.append_mark ((hg.cons_mark (by decide)).cons_mark (by decide))

theorem IsClause.listed_map {α : Type} {part : α → Fragment} (h : ∀ x, IsClause (part x))
    (xs : List α) : IsClause (Fragment.listed (xs.map part)) := by
  apply IsClause.listed
  intro f hf
  obtain ⟨x, -, rfl⟩ := List.mem_map.mp hf
  exact h x

theorem IsClause.enclosed {f : Fragment} (hf : IsClause f) : IsClause (Fragment.enclosed f) :=
  IsClause.cons_mark (hf.append_mark (IsClause.nil.cons_mark (by decide))) (by decide)

theorem IsClause.call (w : Word) {parts : List Fragment} (h : ∀ f ∈ parts, IsClause f) :
    IsClause (Fragment.call w parts) :=
  (IsClause.singleton (t := .word w) nofun).append_mark (IsClause.listed h).enclosed

theorem IsClause.append_tail {f : Fragment} (hf : IsClause f) {g? : Option Fragment}
    (hg : ∀ g ∈ g?, IsClause g) : IsClause (f ++ Fragment.tail g?) := by
  cases g? with
  | none => simpa [Fragment.tail] using hf
  | some g => exact hf.append_mark ((hg g rfl).cons_mark (by decide))

theorem IsClause.ofName (s : String) : IsClause (Fragment.ofName s) := .singleton nofun

theorem IsClause.ofWord (w : Word) : IsClause (Fragment.ofWord w) := .singleton nofun

theorem IsClause.ofParam (p : Param) : IsClause (Fragment.ofParam p) := by
  unfold Fragment.ofParam
  split <;> exact .singleton nofun

end Fragment

/-! ## Reading a token off the head of a text -/

theorem boundary_nil : Boundary [] := by
  intro c hc
  cases hc

theorem boundary_mark (m : Mark) (cs : List Char) : Boundary (m.text.toList ++ cs) := by
  cases m <;> simp [Boundary, Mark.text, isWordChar]

/-- Words of a phrase are kept apart by blanks. -/
theorem lex_phrase (d : Dialect) (ks : List Keyword) {rest : List Char} (h : Boundary rest) :
    lex d ([' '].intercalate (ks.map Keyword.text) ++ rest) =
      (lex d rest).map (ks.map .keyword ++ ·) := by
  induction ks with
  | nil => simp
  | cons k ks ih =>
    cases ks with
    | nil => simpa using lex_keyword d k h
    | cons k' ks =>
      have hb : ∀ cs, Boundary (' ' :: cs) := boundary_mark .blank
      simp only [List.map_cons] at ih ⊢
      rw [List.intercalate_cons_cons, List.append_assoc, List.append_assoc, List.singleton_append,
        lex_keyword d k (hb _), lex_blank, ih, Option.map_map]
      rfl

theorem lex_segment {d : Dialect} {s : List Char} (h : d.quoteChar ∉ s) (rest : List Char) :
    lex d (Identifier.quoteSegment d.quoteChar s ++ rest) =
      (lex d rest).map (segmentLexeme s :: ·) := by
  unfold Identifier.quoteSegment segmentLexeme
  split
  · rename_i hs
    rw [hs, List.singleton_append]
    exact lex_symbol d .star rest
  · have hq := lex_quoted h rest
    simpa using hq

theorem lex_segments {d : Dialect} {ss : List (List Char)} (h : ∀ s ∈ ss, d.quoteChar ∉ s)
    (rest : List Char) :
    lex d (['.'].intercalate (ss.map (Identifier.quoteSegment d.quoteChar)) ++ rest) =
      (lex d rest).map (segmentsLexemes ss ++ ·) := by
  induction ss with
  | nil => simp [segmentsLexemes]
  | cons s ss ih =>
    have hs := h s List.mem_cons_self
    cases ss with
    | nil => simpa [segmentsLexemes] using lex_segment hs rest
    | cons s' ss =>
      have hrest := ih fun t ht => h t (List.mem_cons_of_mem s ht)
      simp only [List.map_cons] at hrest ⊢
      rw [List.intercalate_cons_cons, List.append_assoc, List.append_assoc, lex_segment hs,
        List.singleton_append]
      have hdot := lex_symbol d .dot
      rw [show Symbol.dot.char = '.' from rfl] at hdot
      rw [hdot, hrest, Option.map_map, Option.map_map]
      rfl

/-! ## Reading a clause -/

/-- The dialect's quote is no character of a segment. -/
theorem quoteChar_not_mem_segments (d : Dialect) (name : String) :
    ∀ s ∈ Identifier.segments name, d.quoteChar ∉ s := by
  intro s hs hq
  have hk := (Identifier.mem_segments hs _ hq).1
  cases d <;> cases hk

theorem Word.text_eq (w : Word) :
    w.text.toList = [' '].intercalate (w.keywords.map Keyword.text) := by
  cases w <;> decide

theorem lex_condition (d : Dialect) (c : Condition) {rest : List Char} (h : Boundary rest) :
    lex d (c.sql.toList ++ rest) = (lex d rest).map (conditionLexemes c ++ ·) := by
  cases hc : conditionSpelling c with
  | inl x =>
    have ht : c.sql.toList = x.text := by
      cases c <;> cases hc <;> decide
    rw [ht, lex_comparison d x h, conditionLexemes, hc]
    rfl
  | inr ks =>
    have ht : c.sql.toList = [' '].intercalate (ks.map Keyword.text) := by
      cases c <;> cases hc <;> decide
    rw [ht, lex_phrase d ks h, conditionLexemes, hc]

theorem lex_ofMark (d : Dialect) (m : Mark) (rest : List Char) :
    lex d (m.text.toList ++ rest) = (lex d rest).map (m.symbols.map .symbol ++ ·) := by
  have hm : m = .blank ∨ ∃ s : Symbol, m.text.toList = [s.char] ∧ m.symbols = [s] := by
    cases m with
    | blank => exact .inl rfl
    | «open» => exact .inr ⟨.open, by decide, rfl⟩
    | close => exact .inr ⟨.close, by decide, rfl⟩
    | comma => exact .inr ⟨.comma, by decide, rfl⟩
    | semicolon => exact .inr ⟨.semicolon, by decide, rfl⟩
    | star => exact .inr ⟨.star, by decide, rfl⟩
  rcases hm with rfl | ⟨s, ht, hs⟩
  · rw [show Mark.blank.text.toList = [' '] by decide, List.singleton_append, lex_blank]
    simp [Mark.symbols]
  · rw [ht, hs, List.singleton_append, lex_symbol]
    rfl

/-- A token without a value is read as its lexemes, whatever has been numbered before it. -/
theorem lex_plain (d : Dialect) (i : Nat) {t : Token} {rest : List Char} (ht : t.param? = none)
    (h : t.IsMark ∨ Boundary rest) :
    lex d ((t.text d i).toList ++ rest) =
      (lex d rest).map (t.lexemes.map (Lexeme.map fun _ => none) ++ ·) := by
  have hword : ∀ ks : List Keyword, (ks.map (Lexeme.keyword (ρ := Param))).map
      (Lexeme.map fun _ => (none : Option Nat)) = ks.map .keyword := by
    intro ks
    rw [List.map_map]
    rfl
  cases t with
  | param p => cases ht
  | mark m =>
    rw [Token.text, lex_ofMark, Token.lexemes, List.map_map]
    rfl
  | word w =>
    rw [Token.text, w.text_eq, lex_phrase d _ (h.resolve_left id), Token.lexemes, hword]
  | operator c =>
    rw [Token.text, lex_condition d c (h.resolve_left id), Token.lexemes]
    cases c <;> rfl
  | chain c =>
    rw [Token.text, show c.sql.toList = (chainKeyword c).text by cases c <;> decide,
      lex_keyword d _ (h.resolve_left id)]
    rfl
  | direction o =>
    rw [Token.text, show o.sql.toList = (directionKeyword o).text by cases o <;> decide,
      lex_keyword d _ (h.resolve_left id)]
    rfl
  | name s =>
    rw [Token.text, Dialect.quote, Identifier.quote, String.toList_ofList, Identifier.quoteChars,
      lex_segments (quoteChar_not_mem_segments d s), Token.lexemes, map_segmentsLexemes]
  | number n =>
    rw [Token.text, String.toList_ofList, lex_number d n (h.resolve_left id)]
    rfl

/-- A token is read off the head of a text that begins with a mark, or is a mark itself. -/
theorem lex_token (d : Dialect) (bound : Nat) (t : Token) {rest : List Char}
    (h : t.IsMark ∨ Boundary rest) :
    lex d ((t.text d (bound + 1)).toList ++ rest) =
      (lex d rest).map (numbered d bound t.lexemes ++ ·) := by
  cases ht : t.param? with
  | none =>
    have hp : placeholders t.lexemes = [] := by
      rw [t.placeholders_lexemes, ht]
      rfl
    rw [lex_plain d _ ht h, numbered_of_placeholders_nil hp]
  | some p =>
    cases t with
    | param q => exact lex_placeholder d (bound + 1) (h.resolve_left id)
    | _ => cases ht

/-- **The text of a clause is read back as its lexemes.** -/
theorem lex_write (d : Dialect) (bound : Nat) {f : Fragment} (h : f.IsChain Apart) :
    lex d (Fragment.write d bound f).toList = some (numbered d bound (Fragment.lexemes f)) := by
  induction f generalizing bound with
  | nil =>
    rw [Fragment.write, show "".toList = [] by decide, lex]
    rfl
  | cons t f ih =>
    rw [List.isChain_cons] at h
    obtain ⟨hhead, hf⟩ := h
    have hb : ∀ n, t.IsMark ∨ Boundary (Fragment.write d n f).toList := by
      intro n
      cases f with
      | nil =>
        right
        rw [Fragment.write, show "".toList = [] by decide]
        exact boundary_nil
      | cons u g =>
        refine (hhead u rfl).imp_right fun hu => ?_
        cases u with
        | mark m =>
          rw [Fragment.write, String.toList_append]
          exact boundary_mark m _
        | _ => cases hu
    have hlen : bound + (placeholders t.lexemes).length =
        if t.param?.isSome then bound + 1 else bound := by
      rw [t.placeholders_lexemes]
      cases t.param? <;> rfl
    rw [Fragment.write, String.toList_append, lex_token d bound t (hb _), ih _ hf, Fragment.lexemes_cons,
      numbered_append, hlen]
    rfl

end Sql

end SingleTable
