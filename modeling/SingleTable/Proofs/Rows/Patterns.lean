import SingleTable.Proofs.Filter.Normal
import SingleTable.Proofs.Pattern.Regular
import SingleTable.Proofs.Sql.Alignment
import SingleTable.Rows.Matching

/-! # Patterns in rows

A comparison with `LIKE` binds one parameter, and a row is asked whether the text of its field
matches the text of that parameter.

* `Param.pattern?`: the text of a parameter that is bound as a pattern.
* `Leaf.Answers`: what `LIKE` and `NOT LIKE` answer about a row.
* `Leaf.answers_text`: a text operand means the same with the stars that it was given and with the
  percent signs that are bound for them.
* `Query.answers_other`: any other operand is bound as it is; a star in it is a wildcard for rows.
-/

namespace SingleTable
open Sql Sql.Fragment

/-- The text of a parameter that is bound as a pattern; null has none. -/
def Param.pattern? : Param → Option String
  | null | default => none
  | text s => some s
  | p => some p.toJson.storedText

theorem Json.likeParam?_eq_map {j : Json} (hj : j ≠ .null) (p : Param) :
    j.likeParam? p = p.pattern?.map fun w => Like.holds w j.storedText := by
  unfold likeParam?
  rw [isNull_eq_false_iff.mpr hj]
  cases p <;> rfl

namespace Leaf

/-- `LIKE` holds of a row just when `P` does, and `NOT LIKE` just when `P` does not. -/
def Answers (l : Leaf) (r : Record) (P : Prop) : Prop :=
  (l.condition = .like → (l.holds r = true ↔ P)) ∧
    (l.condition = .notLike → (l.holds r = true ↔ ¬P))

theorem Answers.congr {l : Leaf} {r : Record} {P Q : Prop} (h : l.Answers r P) (hPQ : P ↔ Q) :
    l.Answers r Q :=
  ⟨fun hc => (h.1 hc).trans hPQ, fun hc => (h.2 hc).trans (not_congr hPQ)⟩

theorem IsSettled.exists_one {l : Leaf} (h : l.IsSettled) (hc : l.condition ≠ .isIn) :
    ∃ x, l.operand = .one x := by
  unfold IsSettled at h
  generalize l.operand = operand at h ⊢
  cases operand with
  | one x => exact ⟨x, rfl⟩
  | many xs => exact absurd h hc

section Undated
variable {l : Leaf} {x : Operand} (hoperand : l.operand = .one x)
  (hcondition : l.condition = .like ∨ l.condition = .notLike) (hdate : l.dateCast = false)
include hoperand hcondition hdate

theorem params_sql_like : l.sql.params = [x.likeParam] := by
  obtain ⟨key, condition, operand, chain, dateCast⟩ := l
  dsimp only at hoperand hcondition hdate
  subst hoperand hdate
  have hparams : (Fragment.spaced [.ofName key, [.operator condition],
      Fragment.ofParam x.likeParam]).params = [x.likeParam] := by
    rw [params_spaced]
    simp only [List.flatMap_cons, List.flatMap_nil, params_ofParam x.likeParam_ne_default]
    rfl
  rcases hcondition with rfl | rfl <;> exact hparams

theorem holds_like (r : Record) :
    l.holds r = ((r.get l.key).likeParam? x.likeParam == some (l.condition == .like)) := by
  obtain ⟨key, condition, operand, chain, dateCast⟩ := l
  dsimp only at hoperand hcondition hdate
  subst hoperand hdate
  rcases hcondition with rfl | rfl <;> rfl

variable {r : Record} (hfield : r.get l.key ≠ .null)
include hfield

theorem answers_like {w : String} (hw : x.likeParam.pattern? = some w) :
    l.Answers r (Like.Matches true w.toList (r.get l.key).storedText.toList) := by
  have hholds := holds_like hoperand hcondition hdate r
  rw [Json.likeParam?_eq_map hfield, hw, Option.map_some] at hholds
  refine Answers.congr (P := Like.holds w (r.get l.key).storedText = true) ⟨?_, ?_⟩
    (Like.holds_iff_matches _ _)
  · intro hc
    rw [hholds, hc]
    simp
  · intro hc
    have hnot : (Condition.notLike == Condition.like) = false := rfl
    rw [hholds, hc, hnot]
    simp

theorem holds_like_of_none (hw : x.likeParam.pattern? = none) : l.holds r = false := by
  rw [holds_like hoperand hcondition hdate, Json.likeParam?_eq_map hfield, hw]
  rfl

end Undated

/-! ## Text operands -/

/-- **A pattern given as text means the same to rows and to the database.** -/
theorem answers_text {l : Leaf} {s : String}
    (hoperand : l.operand = .one (.text s) ∨ l.operand = .one (.raw (.string s)))
    (hcondition : l.condition = .like ∨ l.condition = .notLike) (hdate : l.dateCast = false)
    {r : Record} (hfield : r.get l.key ≠ .null) :
    ∃ p, l.sql.params = [.text p] ∧
      (r.get l.key).likeParam? (.text p) =
        some (Expression.search (r.get l.key).storedText (Like.expression p)) ∧
      l.Answers r (Like.Matches false p.toList (r.get l.key).storedText.toList) ∧
      l.Answers r (Like.Matches true s.toList (r.get l.key).storedText.toList) := by
  obtain ⟨x, hx, hparam⟩ : ∃ x, l.operand = .one x ∧
      x.likeParam = .text (String.ofList (Like.starToPercent s.toList)) := by
    rcases hoperand with h | h <;> exact ⟨_, h, rfl⟩
  have hparams := params_sql_like hx hcondition hdate
  have hanswers := answers_like hx hcondition hdate hfield (congrArg Param.pattern? hparam)
  have hsame (star : Bool) (t : List Char) := Like.matches_starToPercent star s.toList t
  rw [hparam] at hparams
  rw [String.toList_ofList] at hanswers
  refine ⟨_, hparams, ?_, ?_, hanswers.congr (hsame true _)⟩
  · rw [Json.likeParam?_eq_map hfield, Like.search_expression]
    rfl
  · rw [String.toList_ofList]
    exact hanswers.congr ((hsame true _).trans (hsame false _).symm)

/-- An escaped star is a character on both sides, and the other one is bound as a percent sign. -/
theorem answers_text_escaped :
    let l : Leaf := ⟨"name", .notLike, .one (.text "(\\**_"), .and, false⟩
    let r : Record := [("name", .string "(*\n)")]
    r.get l.key ≠ .null ∧ l.sql.params = [.text "(\\*%_"] ∧
      (l.holds r = true ↔ ¬Like.Matches false "(\\*%_".toList "(*\n)".toList) := by
  intro l r
  have hfield : r.get l.key ≠ .null := by
    rw [show r.get l.key = .string "(*\n)" from rfl]
    exact Json.noConfusion
  obtain ⟨p, hparams, -, hanswers, -⟩ := answers_text (l := l) (.inl rfl) (.inr rfl) rfl hfield
  have hbound : l.sql.params = [.text "(\\*%_"] := rfl
  obtain rfl : "(\\*%_" = p := Param.text.inj (List.singleton_inj.mp (hbound.symm.trans hparams))
  exact ⟨hfield, hbound, hanswers.2 rfl⟩

end Leaf

/-! ## Texts without a star -/

section Stars
open Text

theorem star_notMem_decimal (n : Nat) : '*' ∉ decimal n := fun h =>
  absurd (isDigit_of_mem_decimal h) (by decide)

theorem star_notMem_integer (n : Int) : '*' ∉ integer n := by
  unfold integer
  split <;> simp [star_notMem_decimal]

theorem star_notMem_fixed (w n : Nat) : '*' ∉ fixed w n := by
  induction w generalizing n with
  | zero => simp [fixed]
  | succ w ih =>
    have hdigit : ∀ k : Fin 10, Char.ofNat ('0'.toNat + k) ≠ '*' := by decide
    have hlast : digitChar n ≠ '*' := hdigit ⟨n % 10, Nat.mod_lt n (by decide)⟩
    simp [fixed, ih, hlast.symm]

theorem star_notMem_positional (d : Decimal) : '*' ∉ d.positional := by
  have hdecimal := star_notMem_decimal d.digits
  have htake (k : Nat) := mt (List.mem_of_mem_take (i := k)) hdecimal
  have hdrop (k : Nat) := mt (List.mem_of_mem_drop (i := k)) hdecimal
  unfold Decimal.positional
  dsimp only
  split
  · simp [hdecimal, List.mem_replicate]
  · split
    · simp [htake, hdrop]
    · simp [hdecimal, List.mem_replicate]

theorem star_notMem_castText (x : Double) : '*' ∉ x.castText.toList := by
  unfold Double.castText
  split
  · decide
  · split
    · split <;> decide
    · split
      · rw [String.toList_ofList]
        exact star_notMem_integer _
      · rw [String.toList_ofList, Double.positional]
        split <;> simp [star_notMem_positional]

theorem star_notMem_date (d : Calendar.Date) : '*' ∉ d.chars := by
  have hyear : '*' ∉ Calendar.Date.yearChars d.year := by
    unfold Calendar.Date.yearChars
    split
    · exact star_notMem_fixed 4 _
    · split <;> simp [star_notMem_decimal, List.mem_replicate]
  simp [Calendar.Date.chars, hyear, star_notMem_fixed]

theorem star_notMem_timestamp (t : Calendar.Timestamp) : '*' ∉ t.isoChars := by
  simp [Calendar.Timestamp.isoChars, Calendar.Timestamp.clockChars, star_notMem_date,
    star_notMem_fixed]

end Stars

/-- Neither a text nor a document. -/
def Param.isPlain : Param → Bool
  | text _ | json _ | array _ => false
  | _ => true

theorem Param.star_notMem_pattern {p : Param} (hp : p.isPlain = true) {w : String}
    (hw : p.pattern? = some w) : '*' ∉ w.toList := by
  cases p with
  | null => cases hw
  | default => cases hw
  | bool b =>
    obtain rfl := Option.some.inj hw
    cases b <;> decide
  | bigInt n =>
    obtain rfl := Option.some.inj hw
    change '*' ∉ (String.ofList _).toList
    rw [String.toList_ofList]
    exact star_notMem_integer n
  | double x =>
    obtain rfl := Option.some.inj hw
    change '*' ∉ (if x.isFinite then Json.number (.double x) else .null).storedText.toList
    split
    · exact star_notMem_castText x
    · decide
  | date d =>
    obtain rfl := Option.some.inj hw
    change '*' ∉ (String.ofList _).toList
    rw [String.toList_ofList]
    exact star_notMem_date d
  | timestamp t =>
    obtain rfl := Option.some.inj hw
    change '*' ∉ (String.ofList _).toList
    rw [String.toList_ofList]
    exact star_notMem_timestamp t
  | _ => cases hp

namespace Operand

def isText : Operand → Bool
  | text _ | raw (.string _) => true
  | _ => false

def isDocument : Operand → Bool
  | raw (.array _) | raw (.object _) => true
  | _ => false

theorem likeParam_of_isText_false {x : Operand} (h : x.isText = false) : x.likeParam = x.toParam := by
  unfold likeParam
  split
  · cases h
  · cases h
  · rfl

theorem isPlain_toParam {x : Operand} (htext : x.isText = false) (hdocument : x.isDocument = false) :
    x.toParam.isPlain = true := by
  cases x with
  | raw j =>
    cases j with
    | number n =>
      change (Param.ofNumber n).isPlain = true
      unfold Param.ofNumber
      split
      · split <;> rfl
      · rfl
    | string s => cases htext
    | array items => cases hdocument
    | object fields => cases hdocument
    | _ => rfl
  | text s => cases htext
  | number x =>
    change (numberParam x).isPlain = true
    unfold numberParam
    split
    · rfl
    · split <;> rfl
  | boolean b => rfl
  | date d => cases d <;> rfl
  | dateTime t => cases t <;> rfl

end Operand

/-! ## Other operands -/

/-- **A pattern that is not text is bound as it is.** To rows a star in its text is a wildcard, but
there is none unless the operand is a document. -/
theorem Query.answers_other {c : Catalog} {input : Json} {q : Query} (h : read c input = .ok q) :
    ∀ n ∈ q.filter, n.All fun l =>
      l.condition = .like ∨ l.condition = .notLike → l.dateCast = false →
        ∃ x, l.operand = .one x ∧ (x.isText = false →
          l.sql.params = [x.toParam] ∧
          ∀ r : Record, r.get l.key ≠ .null →
            (x.toParam.pattern? = none → l.holds r = false) ∧
            ∀ w, x.toParam.pattern? = some w →
              l.Answers r (Like.Matches true w.toList (r.get l.key).storedText.toList) ∧
              (x.isDocument = false ∨ Like.starToPercent w.toList = w.toList →
                l.Answers r (Like.Matches false w.toList (r.get l.key).storedText.toList))) := by
  intro n hn
  refine (Filter.all_of_read (filter_of_read h) n hn).mono fun l hl hcondition hdate => ?_
  have hone : l.condition ≠ .isIn := by
    rcases hcondition with hc | hc <;> simp [hc]
  obtain ⟨x, hx⟩ := hl.isSettled.exists_one hone
  refine ⟨x, hx, fun htext => ?_⟩
  have hparam := Operand.likeParam_of_isText_false htext
  have hparams := Leaf.params_sql_like hx hcondition hdate
  rw [hparam] at hparams
  refine ⟨hparams, fun r hfield => ⟨fun hw => ?_, fun w hw => ?_⟩⟩
  · exact Leaf.holds_like_of_none hx hcondition hdate hfield (hparam.symm ▸ hw)
  · have hanswers := Leaf.answers_like hx hcondition hdate hfield (hparam.symm ▸ hw)
    refine ⟨hanswers, fun hstar => hanswers.congr ?_⟩
    have hkept : Like.starToPercent w.toList = w.toList := by
      rcases hstar with hdocument | hkept
      · exact Like.starToPercent_of_notMem
          (Param.star_notMem_pattern (Operand.isPlain_toParam htext hdocument) hw)
      · exact hkept
    have hsame := Like.matches_starToPercent false w.toList (r.get l.key).storedText.toList
    rw [hkept] at hsame
    exact hsame.symm

theorem Query.read_entry {c : Catalog} {entry : Record} {n : Node}
    (h : Filter.readEntry c entry = .ok n) :
    read c (.object [("where", .array [.object entry])]) = .ok { filter := [n] } := by
  have hfilter : Filter.read c (.object [("where", .array [.object entry])]) = .ok [n] := by
    change Filter.readEntries c (.array _) = _
    rw [Filter.readEntries, Filter.readItems, h, Filter.readItems]
    rfl
  rw [read, hfilter]
  rfl

/-- A number is matched like the text of its digits. -/
theorem Query.answers_other_number :
    let c := Catalog.ofList [⟨"name", .string, false⟩]
    let entry : Record :=
      [("key", .string "name"), ("condition", .string "like"), ("value", .number (.int 5))]
    let input := Json.object [("where", .array [.object entry])]
    let l : Leaf := ⟨"name", .like, .one (.raw (.number (.int 5))), .and, false⟩
    let r : Record := [("name", .string "15")]
    read c input = .ok { filter := [.leaf l] } ∧
      (l.holds r = true ↔ Like.Matches false "5".toList "15".toList) := by
  intro c entry input l r
  have hread : read c input = .ok { filter := [.leaf l] } := by
    apply read_entry
    rw [Filter.readEntry_leaf c rfl]
    rfl
  have hfield : r.get l.key ≠ .null := by
    rw [show r.get l.key = .string "15" from rfl]
    exact Json.noConfusion
  refine ⟨hread, ?_⟩
  cases answers_other hread _ (List.mem_singleton_self _) with
  | leaf hleaf =>
    obtain ⟨x, hx, hanswers⟩ := hleaf (.inl rfl) rfl
    obtain rfl : Operand.raw (.number (.int 5)) = x := RightSide.one.inj hx
    obtain ⟨-, hmatches⟩ := ((hanswers rfl).2 r hfield).2 "5" rfl
    exact (hmatches (.inl rfl)).1 rfl

/-- A star in a document is a wildcard to rows, though the database reads it as a star. -/
theorem Query.answers_other_star :
    let c := Catalog.ofList [⟨"doc", .json, false⟩]
    let entry : Record := [("key", .string "doc"), ("condition", .string "like"),
      ("value", .object [("a", .string "*")])]
    let input := Json.object [("where", .array [.object entry])]
    let l : Leaf := ⟨"doc", .like, .one (.raw (.object [("a", .string "*")])), .and, false⟩
    let r : Record := [("doc", .object [("a", .string "b")])]
    read c input = .ok { filter := [.leaf l] } ∧
      l.sql.params = [.json (.object [("a", .string "*")])] ∧ l.holds r = true ∧
      ¬Like.Matches false (Json.object [("a", .string "*")]).compact.toList
        (r.get l.key).storedText.toList := by
  intro c entry input l r
  have hread : read c input = .ok { filter := [.leaf l] } := by
    apply read_entry
    rw [Filter.readEntry_leaf c rfl]
    rfl
  refine ⟨hread, rfl, by decide, ?_⟩
  have hpattern : (Json.object [("a", .string "*")]).compact.toList =
      ['\x7b', '"', 'a', '"', ':', '"', '*', '"', '\x7d'] := by decide
  have htext : (r.get l.key).storedText.toList =
      ['\x7b', '"', 'a', '"', ':', '"', 'b', '"', '\x7d'] := by decide
  rw [hpattern, htext]
  simp [Like.matches_plain_iff, Like.isPlain, Like.isRun]

end SingleTable
