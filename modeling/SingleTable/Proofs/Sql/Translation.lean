import SingleTable.Proofs.Sql.Request

/-! # From one dialect to the other

The dialects differ in quotes and placeholders, and what they quote or number is the same.

* `toPostgres`: a text of MySQL with the quotes and the numbered placeholders of Postgres.
* `Fragment.toPostgres_write`: a fragment as it is written in both dialects.
* `Config.statement_inDialect`: a statement as it is written in both dialects.
-/

namespace SingleTable
open Sql Sql.Fragment

/-! ## Texts -/

namespace Sql

/-- The text with a double quote for every backtick, and with `$n` for its question marks, which are
counted on from `bound`. -/
def toPostgres : Nat → List Char → List Char
  | _, [] => []
  | bound, c :: cs =>
    if c = '\x60' then '"' :: toPostgres bound cs
    else if c = '?' then '$' :: (Text.decimal (bound + 1) ++ toPostgres (bound + 1) cs)
    else c :: toPostgres bound cs

def Command.toPostgres (command : Command) : Command :=
  ⟨String.ofList (Sql.toPostgres 0 command.sql.toList), command.params⟩

/-- A character that both dialects write for itself. -/
def isCommon (c : Char) : Bool := c != '\x60' && c != '?'

theorem toPostgres_cons {c : Char} (h : isCommon c = true) (bound : Nat) (cs : List Char) :
    toPostgres bound (c :: cs) = c :: toPostgres bound cs := by
  simp only [isCommon, Bool.and_eq_true, bne_iff_ne] at h
  rw [toPostgres, if_neg h.1, if_neg h.2]

theorem toPostgres_append {cs : List Char} (h : ∀ c ∈ cs, isCommon c = true) (bound : Nat)
    (rest : List Char) : toPostgres bound (cs ++ rest) = cs ++ toPostgres bound rest := by
  induction cs with
  | nil => rfl
  | cons c cs ih =>
    have hcs := ih fun d hd => h d (List.mem_cons_of_mem c hd)
    rw [List.cons_append, toPostgres_cons (h c List.mem_cons_self), hcs, List.cons_append]

theorem isCommon_of_ne {c : Char} (hq : c ≠ '\x60') (hm : c ≠ '?') : isCommon c = true := by
  simp [isCommon, hq, hm]

theorem isCommon_of_isDigit {c : Char} (h : Text.isDigit c = true) : isCommon c = true := by
  refine isCommon_of_ne ?_ ?_
  all_goals
    rintro rfl
    cases h

/-! ## Names -/

/-- No name keeps a character that is special to a dialect. -/
theorem isCommon_of_mem_segments {name : String} {s : List Char}
    (hs : s ∈ Identifier.segments name) : ∀ c ∈ s, isCommon c = true := by
  intro c hc
  have hkept := (Identifier.mem_segments hs c hc).1
  refine isCommon_of_ne ?_ ?_
  all_goals
    rintro rfl
    cases hkept

theorem toPostgres_quoteSegment {s : List Char} (h : ∀ c ∈ s, isCommon c = true) (bound : Nat)
    (rest : List Char) :
    toPostgres bound (Identifier.quoteSegment Dialect.mysql.quoteChar s ++ rest) =
      Identifier.quoteSegment Dialect.postgres.quoteChar s ++ toPostgres bound rest := by
  unfold Identifier.quoteSegment
  split
  · exact toPostgres_append h bound rest
  · have hquote : ∀ cs, toPostgres bound (Dialect.mysql.quoteChar :: cs) =
        Dialect.postgres.quoteChar :: toPostgres bound cs := fun _ => rfl
    simp only [List.cons_append, List.append_assoc, List.nil_append, hquote,
      toPostgres_append h]

theorem toPostgres_segments {ss : List (List Char)} (h : ∀ s ∈ ss, ∀ c ∈ s, isCommon c = true)
    (bound : Nat) (rest : List Char) :
    toPostgres bound
        (['.'].intercalate (ss.map (Identifier.quoteSegment Dialect.mysql.quoteChar)) ++ rest) =
      ['.'].intercalate (ss.map (Identifier.quoteSegment Dialect.postgres.quoteChar)) ++
        toPostgres bound rest := by
  induction ss with
  | nil => rfl
  | cons s ss ih =>
    have hs := toPostgres_quoteSegment (h s List.mem_cons_self) bound
    cases ss with
    | nil => simpa using hs rest
    | cons t ss =>
      have hrest := ih fun u hu => h u (List.mem_cons_of_mem s hu)
      have hdot : ∀ cs, toPostgres bound ('.' :: cs) = '.' :: toPostgres bound cs :=
        toPostgres_cons (by decide) bound
      simp only [List.map_cons] at hrest ⊢
      rw [List.intercalate_cons_cons, List.intercalate_cons_cons, List.append_assoc,
        List.append_assoc, List.append_assoc, List.append_assoc, hs, List.singleton_append, hdot,
        hrest]
      rfl

/-! ## Fragments -/

/-- What is neither a name nor a value is written alike, without any special character. -/
theorem Token.text_common {t : Token} (hp : t.param? = none) (hn : ∀ s, t ≠ .name s) (i : Nat) :
    t.text .mysql i = t.text .postgres i ∧
      ∀ c ∈ (t.text .postgres i).toList, isCommon c = true := by
  cases t with
  | word w =>
    have h : w.text.toList.all isCommon = true := by cases w <;> decide
    exact ⟨rfl, List.all_eq_true.mp h⟩
  | mark m =>
    have h : m.text.toList.all isCommon = true := by cases m <;> decide
    exact ⟨rfl, List.all_eq_true.mp h⟩
  | operator c =>
    have h : c.sql.toList.all isCommon = true := by cases c <;> decide
    exact ⟨rfl, List.all_eq_true.mp h⟩
  | chain c =>
    have h : c.sql.toList.all isCommon = true := by cases c <;> decide
    exact ⟨rfl, List.all_eq_true.mp h⟩
  | direction d =>
    have h : d.sql.toList.all isCommon = true := by cases d <;> decide
    exact ⟨rfl, List.all_eq_true.mp h⟩
  | number n =>
    refine ⟨rfl, fun c hc => isCommon_of_isDigit ?_⟩
    rw [Token.text, String.toList_ofList] at hc
    exact Text.isDigit_of_mem_decimal hc
  | name s => exact absurd rfl (hn s)
  | param p => cases hp

theorem Token.toPostgres_text (t : Token) (bound : Nat) (rest : List Char) :
    toPostgres bound ((t.text .mysql (bound + 1)).toList ++ rest) =
      (t.text .postgres (bound + 1)).toList ++
        toPostgres (if t.param?.isSome then bound + 1 else bound) rest := by
  by_cases hn : ∃ s, t = .name s
  · obtain ⟨s, rfl⟩ := hn
    rw [Token.text, Token.text, Dialect.quote, Dialect.quote, Identifier.quote, Identifier.quote,
      String.toList_ofList, String.toList_ofList]
    exact toPostgres_segments (fun u hu => isCommon_of_mem_segments hu) bound rest
  cases hp : t.param? with
  | none =>
    obtain ⟨htext, hcommon⟩ := Token.text_common hp (fun s hs => hn ⟨s, hs⟩) (bound + 1)
    rw [htext, toPostgres_append hcommon]
    rfl
  | some p =>
    cases t with
    | param q =>
      have hmysql : (Dialect.mysql.placeholder (bound + 1)).toList = ['?'] := by
        simp [Dialect.placeholder]
      have hpostgres : (Dialect.postgres.placeholder (bound + 1)).toList =
          '$' :: Text.decimal (bound + 1) := String.toList_ofList
      rw [Token.text, Token.text, hmysql, hpostgres]
      rfl
    | _ => cases hp

/-- **A fragment's text in Postgres is its text in MySQL, with other quotes and placeholders.** -/
theorem Fragment.toPostgres_write (bound : Nat) (f : Fragment) :
    toPostgres bound (write .mysql bound f).toList = (write .postgres bound f).toList := by
  induction f generalizing bound with
  | nil => rfl
  | cons t f ih =>
    rw [write, write, String.toList_append, String.toList_append, Token.toPostgres_text, ih]

theorem Fragment.toPostgres_command (f : Fragment) :
    (Fragment.command .mysql f).toPostgres = Fragment.command .postgres f := by
  unfold Command.toPostgres Fragment.command
  rw [Fragment.toPostgres_write, String.ofList_toList]

end Sql

/-! ## Statements -/

namespace Config

def inDialect (c : Config) (d : Dialect) : Config := { c with dialect := d }

/-- The columns that a write is asked to hand back. -/
def Request.returning : Request → List String
  | .insert _ _ returning | .update _ _ _ returning => returning
  | _ => []

/-- Nothing but the columns handed back makes a statement of one dialect longer. -/
theorem fragment_inDialect (c : Config) {r : Request} (h : r.returning = []) (d e : Dialect) :
    (c.inDialect d).fragment r = (c.inDialect e).fragment r := by
  cases r with
  | insert catalog rows returning =>
    obtain rfl : returning = [] := h
    rfl
  | update catalog data filter returning =>
    obtain rfl : returning = [] := h
    rfl
  | _ => rfl

/-- **Both dialects say the same.** They refuse the same requests for the same reasons, and a
statement has the same parameters in both and the same text but for quotes and placeholders. -/
theorem statement_inDialect (c : Config) {r : Request} (h : r.returning = []) :
    (c.inDialect .postgres).statement r =
      ((c.inDialect .mysql).statement r).map Command.toPostgres := by
  rw [statement_eq_map, statement_eq_map, c.fragment_inDialect h .postgres .mysql]
  cases (c.inDialect .mysql).fragment r with
  | error e => rfl
  | ok f => exact congrArg Except.ok (toPostgres_command f).symm

theorem statement_inDialect_hostile :
    let c := Config.ofTable "t?`\"" (.ofList [⟨"spot", .point, false⟩])
    let data : Record := [("spot", .object [("y", .string "?")]), ("*.`?", .string "`")]
    let filter := [Node.leaf ⟨"$1", .isIn, .many [.text "?", .text "$1"], .and, true⟩]
    let r := Request.update c.columns data filter []
    r.returning = [] ∧
      (c.inDialect .postgres).statement r =
        ((c.inDialect .mysql).statement r).map Command.toPostgres ∧
      ((c.inDialect .mysql).statement r).map Command.sql =
        .ok ("UPDATE `t` SET `spot` = POINT(?, ?), *.`` = ? " ++
          "WHERE DATE(`1`) IN (DATE(?), DATE(?));") ∧
      ((c.inDialect .postgres).statement r).map Command.sql =
        .ok ("UPDATE \"t\" SET \"spot\" = POINT($1, $2), *.\"\" = $3 " ++
          "WHERE DATE(\"1\") IN (DATE($4), DATE($5));") := by
  intro c data filter r
  exact ⟨rfl, c.statement_inDialect rfl, congrArg Except.ok (by decide +kernel),
    congrArg Except.ok (by decide +kernel)⟩

end Config

end SingleTable
