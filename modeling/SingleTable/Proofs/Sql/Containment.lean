import SingleTable.Proofs.Sql.Request

/-! # Names stay inside their quotes

The names of tables and columns come from outside and may hold any characters at all.

* `isPlain`: the characters that a quoted identifier is left with.
* `Contained`: a text made of lexemes with plain identifiers only, without the quotes of another
  dialect, and with one semicolon, which ends it.
* `Config.statement_contained`: all this of every statement.
-/

namespace SingleTable
open Sql Sql.Fragment

namespace Sql

def isPlain (c : Char) : Bool := c.isAlphanum || c == '_' || c == '*'

/-- A text from which no name has broken out. -/
structure Contained (d : Dialect) (text : String) : Prop where
  lexemes : ∃ xs, lex d text.toList = some xs ∧ ∀ s, .quoted s ∈ xs → ∀ c ∈ s, isPlain c = true
  quotes : ∀ d' ≠ d, d'.quoteChar ∉ text.toList
  ended : ∃ body, text.toList = body ++ [';'] ∧ ';' ∉ body

/-! ## The lexemes of a clause -/

/-- Neither the end of a statement nor an identifier that needs more than its quotes. -/
def Lexeme.IsInner {ρ : Type} : Lexeme ρ → Prop
  | quoted s => ∀ c ∈ s, isPlain c = true
  | symbol s => s ≠ .semicolon
  | _ => True

theorem Lexeme.isInner_map {ρ σ : Type} (f : ρ → σ) (x : Lexeme ρ) :
    (x.map f).IsInner ↔ x.IsInner := by
  cases x <;> exact Iff.rfl

theorem isPlain_of_mem_segments {name : String} {s : List Char}
    (hs : s ∈ Identifier.segments name) : ∀ c ∈ s, isPlain c = true := by
  intro c hc
  obtain ⟨hk, hd⟩ := Identifier.mem_segments hs c hc
  simpa [isPlain, Identifier.isKept, hd] using hk

theorem isInner_of_mem_segmentsLexemes {ρ : Type} {ss : List (List Char)}
    (h : ∀ s ∈ ss, ∀ c ∈ s, isPlain c = true) :
    ∀ x ∈ segmentsLexemes (ρ := ρ) ss, x.IsInner := by
  have hsymbol : ∀ s : Symbol, s ≠ .semicolon → (Lexeme.symbol (ρ := ρ) s).IsInner := fun _ hs => hs
  have hsegment : ∀ s : List Char, (∀ c ∈ s, isPlain c = true) →
      (segmentLexeme (ρ := ρ) s).IsInner := by
    intro s hs
    unfold segmentLexeme
    split
    · exact hsymbol .star (by decide)
    · exact hs
  fun_induction segmentsLexemes (ρ := ρ) ss with
  | case1 =>
    intro x hx
    cases hx
  | case2 s =>
    intro x hx
    rw [List.mem_singleton] at hx
    rw [hx]
    exact hsegment s (h s List.mem_cons_self)
  | case3 s ss _ ih =>
    rw [List.forall_mem_cons, List.forall_mem_cons]
    rw [List.forall_mem_cons] at h
    exact ⟨hsegment s h.1, hsymbol .dot (by decide), ih h.2⟩

theorem Token.isInner_of_mem_lexemes {t : Token} (ht : t ≠ .mark .semicolon) :
    ∀ x ∈ t.lexemes, x.IsInner := by
  cases t with
  | name s => exact isInner_of_mem_segmentsLexemes fun _ hs => isPlain_of_mem_segments hs
  | word w =>
    intro x hx
    obtain ⟨k, -, rfl⟩ := List.mem_map.mp hx
    trivial
  | operator c =>
    intro x hx
    cases c <;> simp [Token.lexemes, conditionLexemes, conditionSpelling] at hx <;>
      rcases hx with rfl | rfl | rfl <;> trivial
  | mark m =>
    intro x hx
    obtain ⟨s, hs, rfl⟩ := List.mem_map.mp hx
    rintro rfl
    cases m <;> simp [Mark.symbols] at hs ht
  | _ =>
    intro x hx
    obtain rfl := List.mem_singleton.mp hx
    trivial

theorem Fragment.IsClause.isInner {g : Fragment} (hg : IsClause g) : ∀ x ∈ g.lexemes, x.IsInner := by
  intro x hx
  obtain ⟨t, ht, hx⟩ := List.mem_flatMap.mp hx
  exact Token.isInner_of_mem_lexemes (fun h => hg.unended (h ▸ ht)) x hx

theorem isInner_of_mem_numbered {ρ : Type} {d : Dialect} {bound : Nat} {xs : List (Lexeme ρ)}
    (h : ∀ x ∈ xs, x.IsInner) : ∀ x ∈ numbered d bound xs, x.IsInner := by
  induction xs generalizing bound with
  | nil => exact nofun
  | cons y xs ih =>
    intro x hx
    rw [numbered] at hx
    rcases List.mem_cons.mp hx with rfl | hx
    · exact (y.isInner_map _).mpr (h y List.mem_cons_self)
    · exact ih (fun x hx => h x (List.mem_cons_of_mem y hx)) x hx

/-! ## The characters of a text -/

/-- Every character but a blank belongs to a lexeme. -/
theorem exists_mem_of_lex {d : Dialect} {cs : List Char} {xs : List (Lexeme (Option Nat))}
    (h : lex d cs = some xs) {c : Char} (hc : c ∈ cs) (hb : c ≠ ' ') : ∃ x ∈ xs, c ∈ x.text d := by
  have hf : c ∈ cs.filter (· != ' ') := List.mem_filter.mpr ⟨hc, by simpa using hb⟩
  rw [filter_of_lex h] at hf
  exact List.mem_flatMap.mp (List.mem_filter.mp hf).1

/-- What the characters of an inner lexeme can be. -/
theorem Lexeme.IsInner.char {d : Dialect} {x : Lexeme (Option Nat)} (hx : x.IsInner) :
    ∀ c ∈ x.text d, isPlain c = true ∨ c = d.quoteChar ∨ c ∈ "?$=<>(),.".toList := by
  intro c hc
  have hword : isWordChar c = true → isPlain c = true := by
    intro h
    simp [isPlain, show (c.isAlphanum || c == '_') = true from h]
  cases x with
  | keyword k => exact .inl (hword (k.isWordChar_of_mem_text c hc).1)
  | quoted s =>
    simp only [text, List.cons_append, List.mem_cons, List.mem_append, List.not_mem_nil,
      or_false] at hc
    rcases hc with rfl | hc | rfl
    · exact .inr (.inl rfl)
    · exact .inl (hx c hc)
    · exact .inr (.inl rfl)
  | number n => exact .inl (hword (isWordChar_of_isDigit (Text.isDigit_of_mem_decimal hc)))
  | placeholder y =>
    cases y with
    | none =>
      obtain rfl := List.mem_singleton.mp hc
      exact .inr (.inr (by decide))
    | some n =>
      rcases List.mem_cons.mp hc with rfl | hc
      · exact .inr (.inr (by decide))
      · exact .inl (hword (isWordChar_of_isDigit (Text.isDigit_of_mem_decimal hc)))
  | comparison y =>
    have hmark : (y.text.all fun c => "?$=<>(),.".toList.contains c) = true := by
      cases y <;> decide
    exact .inr (.inr (List.contains_iff_mem.mp (List.all_eq_true.mp hmark c hc)))
  | symbol s =>
    obtain rfl := List.mem_singleton.mp hc
    cases s with
    | semicolon => exact absurd rfl hx
    | star => exact .inl (by decide)
    | _ => exact .inr (.inr (by decide))

/-- The text of a clause has neither a semicolon nor another dialect's quotes. -/
theorem not_mem_write {d : Dialect} {bound : Nat} {g : Fragment} (hg : IsClause g) {c : Char}
    (hc : c = ';' ∨ ∃ d' ≠ d, c = d'.quoteChar) : c ∉ (write d bound g).toList := by
  intro hmem
  have hodd : c ≠ ' ' ∧ isPlain c = false ∧ c ≠ d.quoteChar ∧ c ∉ "?$=<>(),.".toList := by
    rcases hc with rfl | ⟨d', hd, rfl⟩
    · cases d <;> decide
    · cases d <;> cases d' <;> first | decide | exact absurd rfl hd
  obtain ⟨hb, hp, hq, hm⟩ := hodd
  obtain ⟨x, hx, hcx⟩ := exists_mem_of_lex (lex_write d bound hg.apart) hmem hb
  rcases (isInner_of_mem_numbered hg.isInner x hx).char c hcx with h | h | h
  · rw [hp] at h
    cases h
  · exact hq h
  · exact hm h

end Sql

/-! ## Statements -/

namespace Config

/-- **No name breaks out of a statement.** -/
theorem statement_contained {c : Config} {r : Request} {command : Command}
    (h : c.statement r = .ok command) : Contained c.dialect command.sql := by
  obtain ⟨g, hg, rfl⟩ := statement_eq h
  have htext : (c.command (ended g)).sql.toList = (write c.dialect 0 g).toList ++ [';'] := by
    simp [Config.command, Fragment.command, ended, write_append, write, Token.text, Mark.text]
  refine ⟨⟨_, lex_write c.dialect 0 (isChain_ended hg), ?_⟩, ?_, _, htext, ?_⟩
  · intro s hs
    rw [ended, lexemes_append, numbered_append] at hs
    rcases List.mem_append.mp hs with hs | hs
    · exact isInner_of_mem_numbered hg.isInner _ hs
    · cases List.mem_singleton.mp hs
  · intro d' hd hmem
    rw [htext] at hmem
    rcases List.mem_append.mp hmem with hmem | hmem
    · exact not_mem_write hg (.inr ⟨d', hd, rfl⟩) hmem
    · cases d' <;> cases List.mem_singleton.mp hmem
  · exact not_mem_write hg (.inl rfl)

theorem statement_contained_hostile :
    let c : Config :=
      { Config.ofTable "t`; DROP TABLE \"u\"; --" (.ofList [⟨"a' OR 1 = 1", .serial, false⟩]) with
        deletedColumn := some "x\" IS NULL; é" }
    let filter := [Node.group .and [.leaf ⟨"*\\\"", .like, .one (.text "\";"), .or, true⟩]]
    let r := Request.select { filter, order := [⟨"v.*.\";", .descending⟩], limit := some 5 }
    ∃ command, c.statement r = .ok command ∧
      command.sql = "SELECT * FROM \"tDROPTABLEu\" WHERE (DATE(*) LIKE DATE($1)) AND " ++
        "\"xISNULL\" IS NULL ORDER BY \"v\".*.\"\" DESC LIMIT 5;" ∧
      Contained .postgres command.sql := by
  intro c filter r
  exact ⟨_, rfl, by decide +kernel, statement_contained (c := c) (r := r) rfl⟩

end Config

end SingleTable
