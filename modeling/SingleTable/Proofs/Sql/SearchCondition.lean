import SingleTable.Proofs.Sql.Writing
import SingleTable.Rows.Compare

/-! # Search conditions

What a database makes of the text behind `WHERE`, without knowing which filter it comes from.

* `Truth`: the three truth values of SQL.
* `Test`: one predicate, or one of the constants `1 = 1` and `1 = 0`.
* `Disjunction`, `Conjunction`, `Factor`: conditions in layers, so that `OR` binds weaker than `AND`
  and parentheses undo that. Each has its lexemes and its truth for a row.
* `Disjunction.read?`: one pass over the lexemes that finds the condition; there is only one.
* `resolve`, `Reads`: a text with parameters, which stand in the places of its placeholders.
-/

namespace SingleTable.Sql

/-! ## Three truth values -/

inductive Truth
  | yes
  | no
  | unknown
deriving DecidableEq

namespace Truth

def ofBool (b : Bool) : Truth := if b then yes else no

/-- What cannot be decided is unknown. -/
def ofOption : Option Bool → Truth
  | some b => ofBool b
  | none => unknown

def and : Truth → Truth → Truth
  | yes, t => t
  | no, _ => no
  | unknown, no => no
  | unknown, _ => unknown

def or : Truth → Truth → Truth
  | yes, _ => yes
  | no, t => t
  | unknown, yes => yes
  | unknown, _ => unknown

def isYes (t : Truth) : Bool := t == yes

@[simp] theorem isYes_ofBool (b : Bool) : (ofBool b).isYes = b := by cases b <;> rfl

@[simp] theorem isYes_ofOption (b : Option Bool) : (ofOption b).isYes = (b == some true) := by
  cases b with
  | none => rfl
  | some b => cases b <;> rfl

@[simp] theorem isYes_and (s t : Truth) : (s.and t).isYes = (s.isYes && t.isYes) := by
  cases s <;> cases t <;> rfl

@[simp] theorem isYes_or (s t : Truth) : (s.or t).isYes = (s.isYes || t.isYes) := by
  cases s <;> cases t <;> rfl

end Truth

/-! ## Tests -/

/-- A column or a value, cut to its date or not. -/
structure Dated (α : Type) where
  cut : Bool
  of : α
deriving DecidableEq

namespace Dated

def lexemes {α : Type} (f : α → Lexeme Param) (x : Dated α) : List (Lexeme Param) :=
  if x.cut then [.keyword .date, .symbol .open, f x.of, .symbol .close] else [f x.of]

def stored (c : Dated String) (r : Record) : Json :=
  if c.cut then (r.get c.of).calendarDate?.elim .null .string else r.get c.of

def value (v : Dated Param) : Param :=
  if v.cut then v.of.calendarDate?.elim .null .text else v.of

end Dated

def Comparison.admits : Comparison → Ordering → Bool
  | equals, o => o == .eq
  | notEquals, o => o != .eq
  | less, o => o == .lt
  | greater, o => o == .gt
  | lessOrEqual, o => o != .gt
  | greaterOrEqual, o => o != .lt

/-- A list of members is never empty. -/
inductive Test
  | constant (b : Bool)
  | compare (op : Comparison) (c : Dated String) (v : Dated Param)
  | like (negated : Bool) (c : Dated String) (v : Dated Param)
  | member (c : Dated String) (v : Dated Param) (vs : List (Dated Param))
  | missing (negated : Bool) (c : Dated String)

namespace Test

def column (c : Dated String) : List (Lexeme Param) := c.lexemes fun name => .quoted name.toList

def bound (v : Dated Param) : List (Lexeme Param) := v.lexemes .placeholder

/-- Further members, each behind a comma. -/
def others (vs : List (Dated Param)) : List (Lexeme Param) :=
  vs.flatMap fun v => .symbol .comma :: bound v

def negation (negated : Bool) : List (Lexeme Param) := if negated then [.keyword .not] else []

def lexemes : Test → List (Lexeme Param)
  | constant b => [.number 1, .comparison .equals, .number (if b then 1 else 0)]
  | compare op c v => column c ++ .comparison op :: bound v
  | like negated c v => column c ++ (negation negated ++ .keyword .like :: bound v)
  | member c v vs =>
    column c ++ .keyword .in :: .symbol .open :: (bound v ++ (others vs ++ [.symbol .close]))
  | missing negated c => column c ++ .keyword .is :: (negation negated ++ [.keyword .null])

def compared (r : Record) (op : Comparison) (c : Dated String) (v : Dated Param) : Truth :=
  .ofOption (((c.stored r).compareParam? v.value).map op.admits)

/-- Membership is an equality with one of the members. -/
def truth (r : Record) : Test → Truth
  | constant b => .ofBool b
  | compare op c v => compared r op c v
  | like negated c v => .ofOption (((c.stored r).likeParam? v.value).map (· != negated))
  | member c v vs => vs.foldl (fun t v => t.or (compared r .equals c v)) (compared r .equals c v)
  | missing negated c => .ofBool ((c.stored r).isNull != negated)

end Test

/-! ## Conditions -/

mutual
inductive Factor
  | test (t : Test)
  | enclosed (d : Disjunction)
inductive Conjunction
  | one (f : Factor)
  | and (c : Conjunction) (f : Factor)
inductive Disjunction
  | one (c : Conjunction)
  | or (d : Disjunction) (c : Conjunction)
end

mutual
def Factor.lexemes : Factor → List (Lexeme Param)
  | .test t => t.lexemes
  | .enclosed d => .symbol .open :: (d.lexemes ++ [.symbol .close])
def Conjunction.lexemes : Conjunction → List (Lexeme Param)
  | .one f => f.lexemes
  | .and c f => c.lexemes ++ .keyword .and :: f.lexemes
def Disjunction.lexemes : Disjunction → List (Lexeme Param)
  | .one c => c.lexemes
  | .or d c => d.lexemes ++ .keyword .or :: c.lexemes
end

mutual
def Factor.truth (r : Record) : Factor → Truth
  | .test t => t.truth r
  | .enclosed d => d.truth r
def Conjunction.truth (r : Record) : Conjunction → Truth
  | .one f => f.truth r
  | .and c f => (c.truth r).and (f.truth r)
def Disjunction.truth (r : Record) : Disjunction → Truth
  | .one c => c.truth r
  | .or d c => (d.truth r).or (c.truth r)
end

/-- One more factor behind `AND` or `OR`. -/
def Disjunction.join : Chain → Disjunction → Factor → Disjunction
  | .and, .one c, f => .one (.and c f)
  | .and, .or d c, f => .or d (.and c f)
  | .or, d, f => .or d (.one f)

theorem Disjunction.lexemes_join (x : Chain) (d : Disjunction) (f : Factor) :
    (d.join x f).lexemes = d.lexemes ++ .keyword (chainKeyword x) :: f.lexemes := by
  cases x with
  | or => rfl
  | and =>
    cases d with
    | one c => rfl
    | or d c => simp [join, lexemes, Conjunction.lexemes, chainKeyword]

/-! ## Reading a test -/

namespace Test

def column? : Lexeme Param → Option String
  | .quoted s => some (String.ofList s)
  | _ => none

/-- Something behind `DATE` in parentheses, or it alone. -/
def readDated? {α : Type} (f : Lexeme Param → Option α) :
    List (Lexeme Param) → Option (Dated α × List (Lexeme Param))
  | .keyword .date :: .symbol .open :: x :: .symbol .close :: xs =>
    (f x).map fun a => (⟨true, a⟩, xs)
  | x :: xs => (f x).map fun a => (⟨false, a⟩, xs)
  | [] => none

def readOthers? : List (Lexeme Param) → Option (List (Dated Param) × List (Lexeme Param))
  | .symbol .close :: xs => some ([], xs)
  | .symbol .comma :: .placeholder p :: xs =>
    (readOthers? xs).map fun (vs, rest) => (⟨false, p⟩ :: vs, rest)
  | .symbol .comma :: .keyword .date :: .symbol .open :: .placeholder p :: .symbol .close :: xs =>
    (readOthers? xs).map fun (vs, rest) => (⟨true, p⟩ :: vs, rest)
  | _ => none

/-- What is tested of a column. -/
def readRight? (c : Dated String) : List (Lexeme Param) → Option (Test × List (Lexeme Param))
  | .comparison op :: xs =>
    (readDated? Lexeme.placeholder? xs).map fun (v, rest) => (compare op c v, rest)
  | .keyword .like :: xs =>
    (readDated? Lexeme.placeholder? xs).map fun (v, rest) => (like false c v, rest)
  | .keyword .not :: .keyword .like :: xs =>
    (readDated? Lexeme.placeholder? xs).map fun (v, rest) => (like true c v, rest)
  | .keyword .in :: .symbol .open :: xs => do
    let (v, xs) ← readDated? Lexeme.placeholder? xs
    let (vs, rest) ← readOthers? xs
    return (member c v vs, rest)
  | .keyword .is :: .keyword .null :: rest => some (missing false c, rest)
  | .keyword .is :: .keyword .not :: .keyword .null :: rest => some (missing true c, rest)
  | _ => none

def read? : List (Lexeme Param) → Option (Test × List (Lexeme Param))
  | .number 1 :: .comparison .equals :: .number 1 :: rest => some (constant true, rest)
  | .number 1 :: .comparison .equals :: .number 0 :: rest => some (constant false, rest)
  | xs => (readDated? column? xs).bind fun (c, xs) => readRight? c xs

theorem readDated?_column (c : Dated String) (rest : List (Lexeme Param)) :
    readDated? column? (column c ++ rest) = some (c, rest) := by
  obtain ⟨cut, name⟩ := c
  cases cut <;> simp [column, Dated.lexemes, readDated?, column?]

theorem readDated?_bound (v : Dated Param) (rest : List (Lexeme Param)) :
    readDated? Lexeme.placeholder? (bound v ++ rest) = some (v, rest) := by
  obtain ⟨cut, p⟩ := v
  cases cut <;> rfl

theorem readOthers?_others (vs : List (Dated Param)) (rest : List (Lexeme Param)) :
    readOthers? (others vs ++ .symbol .close :: rest) = some (vs, rest) := by
  induction vs with
  | nil => rfl
  | cons v vs ih =>
    obtain ⟨cut, p⟩ := v
    have hcons : ∀ w, others (w :: vs) = .symbol .comma :: (bound w ++ others vs) := fun _ => rfl
    rw [hcons, List.cons_append, List.append_assoc]
    cases cut
    all_goals
      rw [bound, Dated.lexemes]
      simp only [if_true, Bool.false_eq_true, if_false, List.cons_append, List.nil_append,
        readOthers?, ih, Option.map_some]

theorem read?_column (c : Dated String) (rest : List (Lexeme Param)) :
    read? (column c ++ rest) = readRight? c rest := by
  have h := readDated?_column c rest
  have hread : read? (column c ++ rest) =
      (readDated? column? (column c ++ rest)).bind fun (c, xs) => readRight? c xs := by
    obtain ⟨cut, name⟩ := c
    cases cut <;> rfl
  rw [hread, h]
  rfl

/-- A test is read off the head of any text that begins with it. -/
theorem read?_lexemes (t : Test) (rest : List (Lexeme Param)) :
    read? (t.lexemes ++ rest) = some (t, rest) := by
  cases t with
  | constant b => cases b <;> rfl
  | compare op c v =>
    rw [lexemes, List.append_assoc, read?_column, List.cons_append, readRight?, readDated?_bound]
    rfl
  | like negated c v =>
    rw [lexemes, List.append_assoc, read?_column]
    cases negated
    all_goals
      change (readDated? Lexeme.placeholder? (bound v ++ rest)).map _ = _
      rw [readDated?_bound]
      rfl
  | member c v vs =>
    rw [lexemes, List.append_assoc, read?_column]
    simp only [List.cons_append, List.append_assoc, List.nil_append, readRight?, readDated?_bound]
    change (readOthers? (others vs ++ .symbol .close :: rest) >>= _) = _
    rw [readOthers?_others]
    rfl
  | missing negated c =>
    rw [lexemes, List.append_assoc, read?_column]
    cases negated <;> rfl

theorem eq_of_readDated? {α : Type} {f : Lexeme Param → Option α} {g : α → Lexeme Param}
    (hfg : ∀ x a, f x = some a → x = g a) {xs rest : List (Lexeme Param)} {y : Dated α}
    (h : readDated? f xs = some (y, rest)) : xs = y.lexemes g ++ rest := by
  unfold readDated? at h
  split at h
  · obtain ⟨a, ha, he⟩ := Option.map_eq_some_iff.mp h
    obtain ⟨rfl, rfl⟩ := Prod.mk.inj he
    rw [hfg _ a ha]
    rfl
  · obtain ⟨a, ha, he⟩ := Option.map_eq_some_iff.mp h
    obtain ⟨rfl, rfl⟩ := Prod.mk.inj he
    rw [hfg _ a ha]
    rfl
  · cases h

theorem eq_of_column? {x : Lexeme Param} {name : String} (h : column? x = some name) :
    x = .quoted name.toList := by
  cases x <;> cases h
  rw [String.toList_ofList]

theorem eq_of_placeholder? {x : Lexeme Param} {p : Param} (h : x.placeholder? = some p) :
    x = .placeholder p := by
  cases x <;> cases h
  rfl

theorem eq_of_readBound? {xs rest : List (Lexeme Param)} {v : Dated Param}
    (h : readDated? Lexeme.placeholder? xs = some (v, rest)) : xs = bound v ++ rest :=
  eq_of_readDated? (fun _ _ => eq_of_placeholder?) h

theorem eq_of_readOthers? {xs rest : List (Lexeme Param)} {vs : List (Dated Param)}
    (h : readOthers? xs = some (vs, rest)) : xs = others vs ++ .symbol .close :: rest := by
  fun_induction readOthers? xs generalizing vs rest with
  | case1 xs =>
    obtain ⟨rfl, rfl⟩ := Prod.mk.inj (Option.some.inj h)
    rfl
  | case2 p xs ih =>
    obtain ⟨⟨ws, rest'⟩, hw, he⟩ := Option.map_eq_some_iff.mp h
    obtain ⟨rfl, rfl⟩ := Prod.mk.inj he
    rw [ih hw]
    rfl
  | case3 p xs ih =>
    obtain ⟨⟨ws, rest'⟩, hw, he⟩ := Option.map_eq_some_iff.mp h
    obtain ⟨rfl, rfl⟩ := Prod.mk.inj he
    rw [ih hw]
    rfl
  | case4 => cases h

theorem eq_of_readRight? {c : Dated String} {xs rest : List (Lexeme Param)} {t : Test}
    (h : readRight? c xs = some (t, rest)) : column c ++ xs = t.lexemes ++ rest := by
  unfold readRight? at h
  split at h
  · obtain ⟨⟨v, rest'⟩, hv, he⟩ := Option.map_eq_some_iff.mp h
    obtain ⟨rfl, rfl⟩ := Prod.mk.inj he
    rw [eq_of_readBound? hv, lexemes, List.append_assoc, List.cons_append]
  · obtain ⟨⟨v, rest'⟩, hv, he⟩ := Option.map_eq_some_iff.mp h
    obtain ⟨rfl, rfl⟩ := Prod.mk.inj he
    rw [eq_of_readBound? hv, lexemes, List.append_assoc]
    rfl
  · obtain ⟨⟨v, rest'⟩, hv, he⟩ := Option.map_eq_some_iff.mp h
    obtain ⟨rfl, rfl⟩ := Prod.mk.inj he
    rw [eq_of_readBound? hv, lexemes, List.append_assoc]
    rfl
  · obtain ⟨⟨v, ys⟩, hv, h⟩ := Option.bind_eq_some_iff.mp h
    obtain ⟨⟨vs, rest'⟩, hvs, h⟩ := Option.bind_eq_some_iff.mp h
    obtain ⟨rfl, rfl⟩ := Prod.mk.inj (Option.some.inj h)
    rw [eq_of_readBound? hv, eq_of_readOthers? hvs]
    simp [lexemes]
  · obtain ⟨rfl, rfl⟩ := Prod.mk.inj (Option.some.inj h)
    simp [lexemes, negation]
  · obtain ⟨rfl, rfl⟩ := Prod.mk.inj (Option.some.inj h)
    simp [lexemes, negation]
  · cases h

theorem eq_of_read? {xs rest : List (Lexeme Param)} {t : Test} (h : read? xs = some (t, rest)) :
    xs = t.lexemes ++ rest := by
  unfold read? at h
  split at h
  · obtain ⟨rfl, rfl⟩ := Prod.mk.inj (Option.some.inj h)
    rfl
  · obtain ⟨rfl, rfl⟩ := Prod.mk.inj (Option.some.inj h)
    rfl
  · obtain ⟨⟨c, ys⟩, hc, h⟩ := Option.bind_eq_some_iff.mp h
    have hcolumn : _ = column c ++ ys := eq_of_readDated? (fun _ _ => eq_of_column?) hc
    rw [hcolumn, eq_of_readRight? h]

theorem length_lt_of_read? {xs rest : List (Lexeme Param)} {t : Test}
    (h : read? xs = some (t, rest)) : rest.length < xs.length := by
  have hlen : 0 < t.lexemes.length := by
    cases t <;> simp only [lexemes, List.length_append, List.length_cons] <;> omega
  rw [eq_of_read? h, List.length_append]
  omega

end Test

/-! ## Reading a condition -/

namespace Disjunction

mutual
/-- Reads a factor and what follows it. `push` puts it where it belongs, and `outer` does so with
the parentheses that are open. -/
def readFactor? (outer : List (Factor → Disjunction)) (push : Factor → Disjunction) :
    List (Lexeme Param) → Option Disjunction
  | .symbol .open :: xs => readFactor? (push :: outer) (fun f => .one (.one f)) xs
  | xs =>
    match _h : Test.read? xs with
    | some (t, rest) => readMore? outer (push (.test t)) rest
    | none => none
termination_by xs => xs.length
decreasing_by
  · simp
  · exact Test.length_lt_of_read? _h
/-- What may follow a factor, when `d` is all that stands before in the same parentheses. -/
def readMore? (outer : List (Factor → Disjunction)) (d : Disjunction) :
    List (Lexeme Param) → Option Disjunction
  | .keyword .and :: xs => readFactor? outer (d.join .and) xs
  | .keyword .or :: xs => readFactor? outer (d.join .or) xs
  | .symbol .close :: xs =>
    match outer with
    | push :: outer => readMore? outer (push (.enclosed d)) xs
    | [] => none
  | [] => if outer.isEmpty then some d else none
  | _ => none
termination_by xs => xs.length
end

def read? (xs : List (Lexeme Param)) : Option Disjunction :=
  readFactor? [] (fun f => .one (.one f)) xs

theorem readFactor?_test (outer : List (Factor → Disjunction)) (push : Factor → Disjunction)
    (t : Test) (rest : List (Lexeme Param)) :
    readFactor? outer push (t.lexemes ++ rest) = readMore? outer (push (.test t)) rest := by
  have h := Test.read?_lexemes t rest
  rw [readFactor?]
  · split
    · rename_i h'
      obtain ⟨rfl, rfl⟩ := Prod.mk.inj (Option.some.inj (h'.symm.trans h))
      rfl
    · rename_i h'
      cases h'.symm.trans h
  · intro xs hopen
    rw [hopen] at h
    cases h

mutual
theorem readFactor?_factor : ∀ (f : Factor) (outer : List (Factor → Disjunction))
    (push : Factor → Disjunction) (rest : List (Lexeme Param)),
    readFactor? outer push (f.lexemes ++ rest) = readMore? outer (push f) rest
  | .test t, outer, push, rest => readFactor?_test outer push t rest
  | .enclosed d, outer, push, rest => by
      rw [Factor.lexemes, List.cons_append, List.append_assoc, readFactor?,
        readFactor?_disjunction d, List.singleton_append, readMore?]
/-- A conjunction stands alone or behind an `OR`: `w` puts it there, and `AND` goes on inside of
`w`. -/
theorem readFactor?_conjunction : ∀ (c : Conjunction) (outer : List (Factor → Disjunction))
    {w : Conjunction → Disjunction} (_ : ∀ c f, (w c).join .and f = w (.and c f))
    (rest : List (Lexeme Param)),
    readFactor? outer (fun f => w (.one f)) (c.lexemes ++ rest) = readMore? outer (w c) rest
  | .one f, outer, _, _, rest => readFactor?_factor f outer _ rest
  | .and c f, outer, w, hw, rest => by
      rw [Conjunction.lexemes, List.append_assoc, readFactor?_conjunction c outer hw,
        List.cons_append, readMore?, readFactor?_factor f, hw]
theorem readFactor?_disjunction : ∀ (d : Disjunction) (outer : List (Factor → Disjunction))
    (rest : List (Lexeme Param)),
    readFactor? outer (fun f => .one (.one f)) (d.lexemes ++ rest) = readMore? outer d rest
  | .one c, outer, rest => readFactor?_conjunction c outer (fun _ _ => rfl) rest
  | .or d c, outer, rest => by
      rw [Disjunction.lexemes, List.append_assoc, readFactor?_disjunction d, List.cons_append,
        readMore?]
      exact readFactor?_conjunction c outer (w := .or d) (fun _ _ => rfl) rest
end

theorem read?_lexemes (d : Disjunction) : read? d.lexemes = some d := by
  have h := readFactor?_disjunction d [] []
  rw [List.append_nil, readMore?] at h
  exact h

/-- Lexemes are those of one condition at most. -/
theorem lexemes_injective {d e : Disjunction} (h : d.lexemes = e.lexemes) : d = e := by
  have hd := read?_lexemes d
  rw [h, read?_lexemes e] at hd
  exact (Option.some.inj hd).symm

end Disjunction

/-! ## Texts with parameters -/

/-- A lexeme with the value of its placeholder, before which `i` other placeholders stand. -/
def Lexeme.resolve? (params : List Param) (i : Nat) : Lexeme (Option Nat) → Option (Lexeme Param)
  | placeholder none => params[i]?.map placeholder
  | placeholder (some 0) => none
  | placeholder (some (n + 1)) => params[n]?.map placeholder
  | keyword k => some (keyword k)
  | quoted s => some (quoted s)
  | number n => some (number n)
  | comparison c => some (comparison c)
  | symbol s => some (symbol s)

def resolve (params : List Param) : Nat → List (Lexeme (Option Nat)) → Option (List (Lexeme Param))
  | _, [] => some []
  | i, x :: xs => do
    let y ← x.resolve? params i
    let ys ← resolve params (if x.placeholder?.isSome then i + 1 else i) xs
    return y :: ys

/-- Values that are bound where their placeholders are numbered come back in their places. -/
theorem resolve_numbered (d : Dialect) {params : List Param} {bound : Nat}
    {xs : List (Lexeme Param)} (h : params.drop bound = placeholders xs) :
    resolve params bound (numbered d bound xs) = some xs := by
  induction xs generalizing bound with
  | nil => rfl
  | cons x xs ih =>
    cases x with
    | placeholder p =>
      have hp : params[bound]? = some p := by
        have h0 := congrArg (·[0]?) h
        rw [List.getElem?_drop] at h0
        exact h0
      have hrest : params.drop (bound + 1) = placeholders xs := by
        rw [← List.drop_drop, h]
        rfl
      have hx : Lexeme.resolve? params bound (.placeholder (numeral d (bound + 1))) =
          some (.placeholder p) := by
        cases d <;> simp [Lexeme.resolve?, numeral, hp]
      have hxs := ih hrest
      simp only [numbered, resolve, Lexeme.map, Lexeme.placeholder?, Option.isSome_some, if_true, hx,
        hxs]
      rfl
    | _ =>
      have hxs := ih h
      simp only [numbered, resolve, Lexeme.map, Lexeme.placeholder?, Lexeme.resolve?]
      simp [hxs]

/-- With its parameters in place, the text is the condition `φ`. -/
def Reads (d : Dialect) (params : List Param) (text : String) (φ : Disjunction) : Prop :=
  ∃ xs, lex d text.toList = some xs ∧ resolve params 0 xs = some φ.lexemes

theorem Reads.unique {d : Dialect} {params : List Param} {text : String} {φ ψ : Disjunction}
    (hφ : Reads d params text φ) (hψ : Reads d params text ψ) : φ = ψ := by
  obtain ⟨xs, hxs, hφ⟩ := hφ
  obtain ⟨ys, hys, hψ⟩ := hψ
  obtain rfl := Option.some.inj (hxs.symm.trans hys)
  exact Disjunction.lexemes_injective (Option.some.inj (hφ.symm.trans hψ))

end SingleTable.Sql
