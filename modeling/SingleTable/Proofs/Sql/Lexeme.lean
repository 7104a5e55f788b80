import SingleTable.Dialect
import SingleTable.Proofs.Text.Digits

/-! # Lexemes of SQL

The text of a statement as a database reads it: character by character, and without knowing how the
text came about.

* `Keyword`, `Comparison`, `Symbol`: the closed sets of words and marks.
* `Lexeme`: one of these, a quoted identifier, a number, or a placeholder. What a placeholder
  carries is left open: its number in a text, its value once values are known.
* `Lexeme.read?`, `lex`: the first lexeme of a text, and all of them. Blanks only separate.
* `filter_of_lex`: the lexemes are the whole text but for blanks, so that reading skips nothing.
* `Boundary`, `lex_keyword`, `lex_number` and the like: a lexeme is read off the head of a text that
  goes on with something that cannot lengthen it.
-/

namespace SingleTable.Sql
open Text

/-! ## Words and marks -/

inductive Keyword
  | select | from | where | order | by | limit | offset | count | as | insert | into | values
  | update | set | delete | returning | default | date | point | and | or | asc | desc | like
  | not | in | is | null
deriving DecidableEq

namespace Keyword

def all : List Keyword :=
  [select, .from, .where, order, .by, limit, offset, count, .as, insert, into, values, update, set,
   delete, returning, default, date, point, and, or, asc, desc, like, not, .in, is, null]

def text : Keyword → List Char
  | select => "SELECT".toList
  | .from => "FROM".toList
  | .where => "WHERE".toList
  | order => "ORDER".toList
  | .by => "BY".toList
  | limit => "LIMIT".toList
  | offset => "OFFSET".toList
  | count => "COUNT".toList
  | .as => "AS".toList
  | insert => "INSERT".toList
  | into => "INTO".toList
  | values => "VALUES".toList
  | update => "UPDATE".toList
  | set => "SET".toList
  | delete => "DELETE".toList
  | returning => "RETURNING".toList
  | default => "DEFAULT".toList
  | date => "DATE".toList
  | point => "POINT".toList
  | and => "AND".toList
  | or => "OR".toList
  | asc => "ASC".toList
  | desc => "DESC".toList
  | like => "LIKE".toList
  | not => "NOT".toList
  | .in => "IN".toList
  | is => "IS".toList
  | null => "NULL".toList

def ofText? (cs : List Char) : Option Keyword := all.find? fun k => k.text == cs

theorem ofText?_text (k : Keyword) : ofText? k.text = some k := by cases k <;> decide

theorem text_ne_nil (k : Keyword) : k.text ≠ [] := by cases k <;> decide

theorem text_of_ofText? {cs : List Char} {k : Keyword} (h : ofText? cs = some k) : k.text = cs := by
  have h' := List.find?_some h
  exact beq_iff_eq.mp h'

end Keyword

inductive Comparison
  | equals | notEquals | less | greater | lessOrEqual | greaterOrEqual
deriving DecidableEq

def Comparison.text : Comparison → List Char
  | equals => ['=']
  | notEquals => ['<', '>']
  | less => ['<']
  | greater => ['>']
  | lessOrEqual => ['<', '=']
  | greaterOrEqual => ['>', '=']

inductive Symbol
  | open | close | comma | semicolon | star | dot
deriving DecidableEq

def Symbol.char : Symbol → Char
  | .open => '('
  | close => ')'
  | comma => ','
  | semicolon => ';'
  | star => '*'
  | dot => '.'

/-! ## Lexemes -/

inductive Lexeme (ρ : Type)
  | keyword (k : Keyword)
  | quoted (content : List Char)
  | number (n : Nat)
  | placeholder (x : ρ)
  | comparison (c : Comparison)
  | symbol (s : Symbol)
deriving DecidableEq

namespace Lexeme
variable {ρ σ : Type}

def map (f : ρ → σ) : Lexeme ρ → Lexeme σ
  | keyword k => keyword k
  | quoted s => quoted s
  | number n => number n
  | placeholder x => placeholder (f x)
  | comparison c => comparison c
  | symbol s => symbol s

def placeholder? : Lexeme ρ → Option ρ
  | placeholder x => some x
  | _ => none

/-- A numbered placeholder is Postgres's, one without a number is MySQL's. -/
def text (d : Dialect) : Lexeme (Option Nat) → List Char
  | keyword k => k.text
  | quoted s => d.quoteChar :: s ++ [d.quoteChar]
  | number n => decimal n
  | placeholder none => ['?']
  | placeholder (some n) => '$' :: decimal n
  | comparison c => c.text
  | symbol s => [s.char]

end Lexeme

/-! ## Reading -/

def isWordChar (c : Char) : Bool := c.isAlphanum || c == '_'

/-- The digits at the head of a text as a number, which is written without leading zeros. -/
def readNumber? (cs : List Char) : Option (Nat × List Char) :=
  let n := value (cs.takeWhile isDigit)
  if decimal n = cs.takeWhile isDigit then some (n, cs.dropWhile isDigit) else none

/-- What stands before the closing quote, and what stands behind it. -/
def readQuoted? (q : Char) : List Char → Option (List Char × List Char)
  | [] => none
  | c :: cs =>
    if c = q then some ([], cs) else (readQuoted? q cs).map fun (s, rest) => (c :: s, rest)

def readKeyword? (cs : List Char) : Option (Keyword × List Char) :=
  (Keyword.ofText? (cs.takeWhile isWordChar)).map (·, cs.dropWhile isWordChar)

/-- Placeholders, comparisons and symbols: what begins with neither a quote, a digit nor a letter. -/
def readMark? (d : Dialect) (c : Char) (cs : List Char) :
    Option (Lexeme (Option Nat) × List Char) :=
  match c, cs with
  | '?', cs => if d = .mysql then some (.placeholder none, cs) else none
  | '$', cs =>
    if d = .postgres then (readNumber? cs).map fun (n, rest) => (.placeholder (some n), rest)
    else none
  | '=', cs => some (.comparison .equals, cs)
  | '<', '>' :: cs => some (.comparison .notEquals, cs)
  | '<', '=' :: cs => some (.comparison .lessOrEqual, cs)
  | '<', cs => some (.comparison .less, cs)
  | '>', '=' :: cs => some (.comparison .greaterOrEqual, cs)
  | '>', cs => some (.comparison .greater, cs)
  | '(', cs => some (.symbol .open, cs)
  | ')', cs => some (.symbol .close, cs)
  | ',', cs => some (.symbol .comma, cs)
  | ';', cs => some (.symbol .semicolon, cs)
  | '*', cs => some (.symbol .star, cs)
  | '.', cs => some (.symbol .dot, cs)
  | _, _ => none

/-- The lexeme that begins with the character `c`, and what follows it. -/
def Lexeme.read? (d : Dialect) (c : Char) (cs : List Char) :
    Option (Lexeme (Option Nat) × List Char) :=
  if c = d.quoteChar then (readQuoted? c cs).map fun (s, rest) => (.quoted s, rest)
  else if isDigit c then (readNumber? (c :: cs)).map fun (n, rest) => (.number n, rest)
  else if isWordChar c then (readKeyword? (c :: cs)).map fun (k, rest) => (.keyword k, rest)
  else readMark? d c cs

/-! ## What is read stands in the text -/

theorem eq_of_readNumber? {cs rest : List Char} {n : Nat}
    (h : readNumber? cs = some (n, rest)) : cs = decimal n ++ rest := by
  unfold readNumber? at h
  dsimp only at h
  split at h
  · rename_i hn
    obtain ⟨rfl, rfl⟩ := Prod.mk.inj (Option.some.inj h)
    rw [hn, List.takeWhile_append_dropWhile]
  · cases h

theorem eq_of_readQuoted? {q : Char} {cs s rest : List Char}
    (h : readQuoted? q cs = some (s, rest)) : cs = s ++ q :: rest := by
  induction cs generalizing s with
  | nil => cases h
  | cons c cs ih =>
    unfold readQuoted? at h
    split at h
    · rename_i hc
      obtain ⟨rfl, rfl⟩ := Prod.mk.inj (Option.some.inj h)
      rw [hc, List.nil_append]
    · obtain ⟨⟨t, rest'⟩, ht, he⟩ := Option.map_eq_some_iff.mp h
      obtain ⟨rfl, rfl⟩ := Prod.mk.inj he
      rw [ih ht, List.cons_append]

theorem eq_of_readKeyword? {cs rest : List Char} {k : Keyword}
    (h : readKeyword? cs = some (k, rest)) : cs = k.text ++ rest := by
  obtain ⟨k', hk, he⟩ := Option.map_eq_some_iff.mp h
  obtain ⟨rfl, rfl⟩ := Prod.mk.inj he
  rw [Keyword.text_of_ofText? hk, List.takeWhile_append_dropWhile]

theorem eq_of_readMark? {d : Dialect} {c : Char} {cs rest : List Char}
    {x : Lexeme (Option Nat)} (h : readMark? d c cs = some (x, rest)) :
    c :: cs = x.text d ++ rest := by
  unfold readMark? at h
  split at h
  · split at h <;> cases h
    rfl
  · split at h
    · obtain ⟨⟨n, rest'⟩, hn, he⟩ := Option.map_eq_some_iff.mp h
      obtain ⟨rfl, rfl⟩ := Prod.mk.inj he
      rw [eq_of_readNumber? hn]
      rfl
    · cases h
  all_goals first | cases h; rfl | cases h

theorem Lexeme.eq_of_read? {d : Dialect} {c : Char} {cs rest : List Char}
    {x : Lexeme (Option Nat)} (h : read? d c cs = some (x, rest)) :
    c :: cs = x.text d ++ rest := by
  unfold read? at h
  split at h
  · rename_i hc
    obtain ⟨⟨s, rest'⟩, hs, he⟩ := Option.map_eq_some_iff.mp h
    obtain ⟨rfl, rfl⟩ := Prod.mk.inj he
    rw [eq_of_readQuoted? hs, hc]
    simp [text]
  split at h
  · obtain ⟨⟨n, rest'⟩, hn, he⟩ := Option.map_eq_some_iff.mp h
    obtain ⟨rfl, rfl⟩ := Prod.mk.inj he
    exact eq_of_readNumber? hn
  split at h
  · obtain ⟨⟨k, rest'⟩, hk, he⟩ := Option.map_eq_some_iff.mp h
    obtain ⟨rfl, rfl⟩ := Prod.mk.inj he
    exact eq_of_readKeyword? hk
  · exact eq_of_readMark? h

theorem Lexeme.text_ne_nil (d : Dialect) (x : Lexeme (Option Nat)) : x.text d ≠ [] := by
  cases x with
  | keyword k => exact k.text_ne_nil
  | quoted s => simp [text]
  | number n => exact Nat.toDigits_ne_nil
  | placeholder x => cases x <;> simp [text]
  | comparison c => cases c <;> simp [text, Comparison.text]
  | symbol s => simp [text]

theorem Lexeme.length_lt_of_read? {d : Dialect} {c : Char} {cs rest : List Char}
    {x : Lexeme (Option Nat)} (h : read? d c cs = some (x, rest)) :
    rest.length < (c :: cs).length := by
  have hlen := List.length_pos_iff.mpr (text_ne_nil d x)
  rw [eq_of_read? h, List.length_append]
  omega

/-! ## All lexemes of a text -/

def lex (d : Dialect) : List Char → Option (List (Lexeme (Option Nat)))
  | [] => some []
  | c :: cs =>
    if c = ' ' then lex d cs
    else match _h : Lexeme.read? d c cs with
      | none => none
      | some (x, rest) => (lex d rest).map (x :: ·)
termination_by cs => cs.length
decreasing_by
  · simp
  · exact Lexeme.length_lt_of_read? _h

theorem lex_blank (d : Dialect) (cs : List Char) : lex d (' ' :: cs) = lex d cs := by
  rw [lex, if_pos rfl]

theorem lex_cons {d : Dialect} {c : Char} {cs rest : List Char} {x : Lexeme (Option Nat)}
    (hc : c ≠ ' ') (h : Lexeme.read? d c cs = some (x, rest)) :
    lex d (c :: cs) = (lex d rest).map (x :: ·) := by
  rw [lex, if_neg hc]
  split
  · rename_i h'
    rw [h] at h'
    cases h'
  · rename_i x' rest' h'
    rw [h] at h'
    obtain ⟨rfl, rfl⟩ := Prod.mk.inj (Option.some.inj h')
    rfl

/-- Reading skips blanks and nothing else. -/
theorem filter_of_lex {d : Dialect} {cs : List Char} {xs : List (Lexeme (Option Nat))}
    (h : lex d cs = some xs) :
    cs.filter (· != ' ') = (xs.flatMap (Lexeme.text d)).filter (· != ' ') := by
  fun_induction lex d cs generalizing xs with
  | case1 =>
    cases h
    rfl
  | case2 cs ih =>
    rw [← ih h]
    rfl
  | case3 c cs hc hr => cases h
  | case4 c cs hc x rest hr ih =>
    obtain ⟨ys, hys, rfl⟩ := Option.map_eq_some_iff.mp h
    rw [Lexeme.eq_of_read? hr, List.filter_append, ih hys, List.flatMap_cons, List.filter_append]

/-! ## Reading what has been written -/

/-- A text that cannot lengthen a word, a number or a comparison in front of it. -/
def Boundary (cs : List Char) : Prop :=
  ∀ c ∈ cs.head?, isWordChar c = false ∧ c ≠ '=' ∧ c ≠ '>'

theorem isWordChar_of_isDigit {c : Char} (h : isDigit c = true) : isWordChar c = true := by
  have hd : c.isDigit = true := h
  simp [isWordChar, Char.isAlphanum, hd]

theorem readNumber?_append (n : Nat) {rest : List Char} (h : Boundary rest) :
    readNumber? (decimal n ++ rest) = some (n, rest) := by
  have hr : ∀ c ∈ rest.head?, isDigit c = false := by
    intro c hc
    have hw := (h c hc).1
    cases hd : isDigit c with
    | false => rfl
    | true =>
      rw [isWordChar_of_isDigit hd] at hw
      cases hw
  obtain ⟨ht, hd⟩ := takeWhile_append_of_head (fun c hc => isDigit_of_mem_decimal (n := n) hc) hr
  unfold readNumber?
  dsimp only
  rw [ht, hd, value_decimal, if_pos rfl]

theorem readQuoted?_append {q : Char} {s : List Char} (h : q ∉ s) (rest : List Char) :
    readQuoted? q (s ++ q :: rest) = some (s, rest) := by
  induction s with
  | nil => simp [readQuoted?]
  | cons c s ih =>
    rw [List.mem_cons, not_or] at h
    rw [List.cons_append, readQuoted?, if_neg (Ne.symm h.1), ih h.2]
    rfl

theorem Keyword.isWordChar_of_mem_text {k : Keyword} :
    ∀ c ∈ k.text, isWordChar c = true ∧ isDigit c = false := by
  have h : (k.text.all fun c => isWordChar c && !isDigit c) = true := by cases k <;> decide
  intro c hc
  simpa using List.all_eq_true.mp h c hc

theorem readKeyword?_append (k : Keyword) {rest : List Char} (h : Boundary rest) :
    readKeyword? (k.text ++ rest) = some (k, rest) := by
  obtain ⟨ht, hd⟩ := takeWhile_append_of_head
    (fun c hc => (k.isWordChar_of_mem_text c hc).1) (fun c hc => (h c hc).1)
  rw [readKeyword?, ht, hd, Keyword.ofText?_text]
  rfl

theorem ne_quoteChar_of_isWordChar {d : Dialect} {c : Char} (h : isWordChar c = true) :
    c ≠ d.quoteChar := by
  rintro rfl
  cases d <;> cases h

theorem ne_blank_of_isWordChar {c : Char} (h : isWordChar c = true) : c ≠ ' ' := by
  rintro rfl
  cases h

/-- What begins with a letter, a digit or an underscore is a keyword or a number. -/
theorem read?_of_isWordChar {d : Dialect} {c : Char} (h : isWordChar c = true) (cs : List Char) :
    Lexeme.read? d c cs =
      if isDigit c then (readNumber? (c :: cs)).map fun (n, rest) => (.number n, rest)
      else (readKeyword? (c :: cs)).map fun (k, rest) => (.keyword k, rest) := by
  unfold Lexeme.read?
  rw [if_neg (ne_quoteChar_of_isWordChar h), if_pos h]

theorem lex_keyword (d : Dialect) (k : Keyword) {rest : List Char} (h : Boundary rest) :
    lex d (k.text ++ rest) = (lex d rest).map (.keyword k :: ·) := by
  obtain ⟨c, w, hw⟩ := List.exists_cons_of_ne_nil k.text_ne_nil
  obtain ⟨hword, hdigit⟩ := k.isWordChar_of_mem_text c (by rw [hw]; exact List.mem_cons_self)
  have hk := readKeyword?_append k h
  rw [hw, List.cons_append] at hk ⊢
  refine lex_cons (ne_blank_of_isWordChar hword) ?_
  rw [read?_of_isWordChar hword, hdigit, if_neg Bool.false_ne_true, hk]
  rfl

theorem lex_number (d : Dialect) (n : Nat) {rest : List Char} (h : Boundary rest) :
    lex d (decimal n ++ rest) = (lex d rest).map (.number n :: ·) := by
  obtain ⟨c, w, hw⟩ := List.exists_cons_of_ne_nil (l := decimal n) Nat.toDigits_ne_nil
  have hdigit : isDigit c = true :=
    isDigit_of_mem_decimal (n := n) (by rw [hw]; exact List.mem_cons_self)
  have hword := isWordChar_of_isDigit hdigit
  have hn := readNumber?_append n h
  rw [hw, List.cons_append] at hn ⊢
  refine lex_cons (ne_blank_of_isWordChar hword) ?_
  rw [read?_of_isWordChar hword, if_pos hdigit, hn]
  rfl

theorem lex_quoted {d : Dialect} {s : List Char} (h : d.quoteChar ∉ s) (rest : List Char) :
    lex d (d.quoteChar :: (s ++ d.quoteChar :: rest)) = (lex d rest).map (.quoted s :: ·) := by
  refine lex_cons (by cases d <;> decide) ?_
  unfold Lexeme.read?
  rw [if_pos rfl, readQuoted?_append h]
  rfl

/-- What begins with a mark that is no quote is read as a mark. -/
theorem lex_mark {d : Dialect} {c : Char} {cs rest : List Char} {x : Lexeme (Option Nat)}
    (hc : c ∈ "?$=<>(),;*.".toList) (h : readMark? d c cs = some (x, rest)) :
    lex d (c :: cs) = (lex d rest).map (x :: ·) := by
  have hne : ("?$=<>(),;*.".toList.all fun c =>
      c != ' ' && c != d.quoteChar && !isDigit c && !isWordChar c) = true := by
    cases d <;> decide
  have hmark := List.all_eq_true.mp hne c hc
  simp only [Bool.and_eq_true, bne_iff_ne, Bool.not_eq_true', and_assoc] at hmark
  obtain ⟨hb, hq, hd, hw⟩ := hmark
  refine lex_cons hb ?_
  unfold Lexeme.read?
  rw [if_neg hq, hd, hw, if_neg Bool.false_ne_true, if_neg Bool.false_ne_true, h]

theorem lex_symbol (d : Dialect) (s : Symbol) (rest : List Char) :
    lex d (s.char :: rest) = (lex d rest).map (.symbol s :: ·) := by
  apply lex_mark
  · cases s <;> decide
  · cases s <;> rfl

theorem lex_comparison (d : Dialect) (x : Comparison) {rest : List Char} (h : Boundary rest) :
    lex d (x.text ++ rest) = (lex d rest).map (.comparison x :: ·) := by
  have hshort : readMark? d '<' rest = some (.comparison .less, rest) ∧
      readMark? d '>' rest = some (.comparison .greater, rest) := by
    cases rest with
    | nil => exact ⟨rfl, rfl⟩
    | cons b r =>
      obtain ⟨-, he, hg⟩ := h b rfl
      simp [readMark?, he, hg]
  cases x with
  | equals => exact lex_mark (by decide) rfl
  | notEquals => exact lex_mark (by decide) rfl
  | less => exact lex_mark (by decide) hshort.1
  | greater => exact lex_mark (by decide) hshort.2
  | lessOrEqual => exact lex_mark (by decide) rfl
  | greaterOrEqual => exact lex_mark (by decide) rfl

/-- The number that the placeholder of the value `i` shows. -/
def numeral : Dialect → Nat → Option Nat
  | .mysql, _ => none
  | .postgres, i => some i

theorem lex_placeholder (d : Dialect) (i : Nat) {rest : List Char} (h : Boundary rest) :
    lex d ((d.placeholder i).toList ++ rest) =
      (lex d rest).map (.placeholder (numeral d i) :: ·) := by
  cases d with
  | mysql =>
    have hp : (Dialect.mysql.placeholder i).toList = ['?'] := by simp [Dialect.placeholder]
    rw [hp, List.singleton_append]
    exact lex_mark (by decide) rfl
  | postgres =>
    have hp : (Dialect.postgres.placeholder i).toList = '$' :: decimal i := String.toList_ofList
    rw [hp, List.cons_append]
    refine lex_mark (by decide) ?_
    change (readNumber? (decimal i ++ rest)).map _ = _
    rw [readNumber?_append i h]
    rfl

end SingleTable.Sql
