import Mathlib.Data.List.Forall2
import SingleTable.Proofs.Filter.Normal
import SingleTable.Rows.Matching

/-! # The normal form of queries

A query that has been read can be written and evaluated without a default: both ways of using a
comparison are total for the sake of comparisons that no document asks for.

* `Leaf.IsNormal`, `Query.IsNormal`: what holds of every query that has been read.
* `Leaf.sql?`, `Leaf.holds?`: a comparison written, and evaluated, with nothing to fall back on.
* `Query.isNormal_of_read`: a query that has been read is normal, and falls back nowhere.
-/

namespace SingleTable
open Sql

/-! ## Normal comparisons -/

/-- The operands of a comparison. -/
def RightSide.operands : RightSide → List Operand
  | one x => [x]
  | many xs => xs

/-- A comparison of a column, in which lists are for membership, null is for the tests for null, and
every operand has a value to bind. -/
structure Leaf.IsNormal (c : Catalog) (l : Leaf) : Prop where
  key : l.key ∈ c.names
  list_iff : (∃ xs, l.operand = .many xs) ↔ l.condition = .isIn
  ne_null : l.condition = .equals ∨ l.condition = .notEquals → l.operand ≠ .one (.raw .null)
  bound : ∀ x ∈ l.operand.operands, x.toParam ≠ .default ∧ x.likeParam ≠ .default

theorem RightSide.ne_null_of_settle {key : String} {c c' : Condition} {r r' : RightSide}
    (h : settle key c r = .ok (c', r')) (hc : c' = .equals ∨ c' = .notEquals) :
    r' ≠ .one (.raw .null) := by
  unfold settle at h
  rintro rfl
  cases c with
  | isIn => cases r <;> cases h
  | _ =>
    generalize r.fit _ = s at h
    cases s <;> cases h
    simp [Operand.isNull, Json.isNull] at hc

theorem Leaf.IsBuilt.isNormal {c : Catalog} {l : Leaf} (h : l.IsBuilt c) : l.IsNormal c := by
  have hsettled := h.isSettled
  obtain ⟨hkey, condition, value, hb⟩ := h
  obtain ⟨c', r, hs, hl⟩ := eq_of_build hb
  rw [hl] at hsettled ⊢
  refine ⟨hkey, ?_, RightSide.ne_null_of_settle hs, fun x _ =>
    ⟨x.toParam_ne_default, x.likeParam_ne_default⟩⟩
  cases r with
  | one x =>
    refine ⟨fun hmany => ?_, fun hc => absurd hc hsettled⟩
    obtain ⟨xs, hxs⟩ := hmany
    cases hxs
  | many xs => exact ⟨fun _ => hsettled, fun _ => ⟨xs, rfl⟩⟩

/-! ## Without a fallback -/

namespace Leaf

/-- A comparison in SQL, for a condition with a right side that suits it. -/
def sql? (l : Leaf) : Option Fragment :=
  match l.condition, l.operand with
  | .isNull, _ | .isNotNull, _ => some (Fragment.spaced [l.column, [.operator l.condition]])
  | .isIn, .many [] => some (truth false)
  | .isIn, .many xs => some (Fragment.spaced [l.column, [.operator .isIn],
      Fragment.enclosed (Fragment.listed (xs.map fun x => l.bound x.toParam))])
  | .like, .one x | .notLike, .one x =>
    some (Fragment.spaced [l.column, [.operator l.condition], l.bound x.likeParam])
  | .isIn, .one _ | _, .many _ => none
  | c, .one x => some (Fragment.spaced [l.column, [.operator c], l.bound x.toParam])

/-- A comparison on a row, for a condition with a right side that suits it. -/
def holds? (l : Leaf) (r : Record) : Option Bool :=
  let field := l.field r
  match l.condition, l.operand with
  | .isNull, _ => some field.isNull
  | .isNotNull, _ => some (!field.isNull)
  | .isIn, .many xs =>
    some (xs.any fun x => field.compareParam? (l.castParam x.toParam) == some .eq)
  | .like, .one x => some (field.likeParam? (l.castParam x.likeParam) == some true)
  | .notLike, .one x => some (field.likeParam? (l.castParam x.likeParam) == some false)
  | .isIn, .one _ | _, .many _ => none
  | c, .one x => some ((field.compareParam? (l.castParam x.toParam)).any c.admits)

theorem IsNormal.isSettled {c : Catalog} {l : Leaf} (h : l.IsNormal c) : l.IsSettled := by
  have hlist := h.list_iff
  unfold IsSettled
  generalize l.operand = r at hlist ⊢
  cases r with
  | one x =>
    intro hc
    obtain ⟨xs, hxs⟩ := hlist.mpr hc
    cases hxs
  | many xs => exact hlist.mp ⟨xs, rfl⟩

theorem IsSettled.sql?_eq {l : Leaf} (h : l.IsSettled) : l.sql? = some l.sql := by
  obtain ⟨key, condition, operand, chain, dateCast⟩ := l
  cases operand with
  | one x =>
    cases condition with
    | isIn => exact absurd rfl h
    | _ => rfl
  | many xs =>
    obtain rfl : condition = .isIn := h
    cases xs <;> rfl

theorem IsSettled.holds?_eq {l : Leaf} (h : l.IsSettled) (r : Record) :
    l.holds? r = some (l.holds r) := by
  obtain ⟨key, condition, operand, chain, dateCast⟩ := l
  cases operand with
  | one x =>
    cases condition with
    | isIn => exact absurd rfl h
    | _ => rfl
  | many xs =>
    obtain rfl : condition = .isIn := h
    rfl

end Leaf

/-! ## Orders and pages -/

theorem mapM_eq_ok_iff {ε α β : Type} {f : α → Except ε β} {xs : List α} {ys : List β} :
    xs.mapM f = .ok ys ↔ List.Forall₂ (fun x y => f x = .ok y) xs ys := by
  induction xs generalizing ys with
  | nil =>
    rw [List.mapM_nil, List.forall₂_nil_left_iff]
    exact ⟨fun h => (Except.ok.inj h).symm, fun h => h ▸ rfl⟩
  | cons x xs ih =>
    rw [List.mapM_cons, List.forall₂_cons_left_iff]
    constructor
    · intro h
      obtain ⟨y, hy, h⟩ := exists_of_bind_ok h
      obtain ⟨rest, hrest, h⟩ := exists_of_bind_ok h
      exact ⟨y, rest, hy, ih.mp hrest, (Except.ok.inj h).symm⟩
    · rintro ⟨y, rest, hy, hrest, rfl⟩
      rw [hy, ih.mpr hrest]
      rfl

theorem mapM_eq_error_iff {ε α β : Type} {f : α → Except ε β} {xs : List α} {e : ε} :
    xs.mapM f = .error e ↔ ∃ before x after, xs = before ++ x :: after ∧
      (∀ y ∈ before, ∃ b, f y = .ok b) ∧ f x = .error e := by
  induction xs with
  | nil =>
    rw [List.mapM_nil]
    refine ⟨nofun, ?_⟩
    rintro ⟨before, x, after, hnil, -⟩
    exact absurd hnil.symm (List.append_ne_nil_of_right_ne_nil _ (List.cons_ne_nil x after))
  | cons x xs ih =>
    rw [List.mapM_cons]
    constructor
    · intro h
      cases hx : f x with
      | error e' =>
        rw [hx] at h
        obtain rfl := Except.error.inj h
        exact ⟨[], x, xs, rfl, fun y hy => absurd hy List.not_mem_nil, hx⟩
      | ok b =>
        cases hxs : xs.mapM f with
        | ok bs =>
          rw [hx, hxs] at h
          cases h
        | error e' =>
          rw [hx, hxs] at h
          obtain rfl := Except.error.inj h
          obtain ⟨before, y, after, rfl, hbefore, hy⟩ := ih.mp hxs
          exact ⟨x :: before, y, after, rfl, List.forall_mem_cons.mpr ⟨⟨b, hx⟩, hbefore⟩, hy⟩
    · rintro ⟨before, y, after, hxs, hbefore, hy⟩
      cases before with
      | nil =>
        obtain ⟨rfl, -⟩ := List.cons.inj hxs
        rw [hy]
        rfl
      | cons z before =>
        obtain ⟨rfl, rfl⟩ := List.cons.inj hxs
        obtain ⟨⟨b, hb⟩, hbefore⟩ := List.forall_mem_cons.mp hbefore
        rw [hb, ih.mpr ⟨before, y, after, rfl, hbefore, hy⟩]
        rfl

theorem exists_of_mem_mapM {ε α β : Type} {f : α → Except ε β} {xs : List α} {ys : List β}
    (h : xs.mapM f = .ok ys) {y : β} (hy : y ∈ ys) : ∃ x ∈ xs, f x = .ok y := by
  have hrel := mapM_eq_ok_iff.mp h
  clear h
  induction hrel with
  | nil => cases hy
  | cons hxy _ ih =>
    rcases List.mem_cons.mp hy with rfl | hy
    · exact ⟨_, List.mem_cons_self, hxy⟩
    · obtain ⟨x, hx, hfx⟩ := ih hy
      exact ⟨x, List.mem_cons_of_mem _ hx, hfx⟩

theorem one_le_clampUnsigned {n : Int} (h : 1 ≤ n) : 1 ≤ clampUnsigned n := by
  have hpow : 1 ≤ Nat.pow 2 64 - 1 := by decide
  unfold clampUnsigned
  omega

namespace Query

theorem key_of_readOrderTerm {c : Catalog} {j : Json} {t : OrderTerm}
    (h : readOrderTerm c j = .ok t) : t.key ∈ c.names := by
  unfold readOrderTerm at h
  split at h
  · obtain ⟨_, hc, h⟩ := exists_of_bind_ok h
    obtain rfl := Except.ok.inj h
    exact Catalog.contains_iff_mem_names.mp (Filter.contains_of_checkColumn hc)
  · split at h
    · obtain ⟨_, hc, h⟩ := exists_of_bind_ok h
      obtain ⟨direction, -, h⟩ := exists_of_bind_ok h
      obtain rfl := Except.ok.inj h
      exact Catalog.contains_iff_mem_names.mp (Filter.contains_of_checkColumn hc)
    · cases h
  · cases h

theorem key_of_readOrder {c : Catalog} {j : Json} {order : List OrderTerm}
    (h : readOrder c j = .ok order) : ∀ t ∈ order, t.key ∈ c.names := by
  intro t ht
  unfold readOrder at h
  split at h
  · obtain rfl := Except.ok.inj h
    cases ht
  · obtain ⟨x, -, hx⟩ := exists_of_mem_mapM h ht
    exact key_of_readOrderTerm hx
  · obtain ⟨t', ht', h⟩ := exists_of_bind_ok h
    obtain rfl := Except.ok.inj h
    obtain rfl := List.mem_singleton.mp ht
    exact key_of_readOrderTerm ht'

theorem one_le_of_positiveCount {j : Json} {k : Nat} (h : positiveCount j = some k) : 1 ≤ k := by
  have hdouble : ∀ x : Double, (if x.isFinite && decide (1 ≤ x.truncate) then
      some (clampUnsigned x.truncate) else none) = some k → 1 ≤ k := by
    intro x hx
    split at hx
    · rename_i hone
      obtain rfl := Option.some.inj hx
      exact one_le_clampUnsigned (of_decide_eq_true (Bool.and_eq_true_iff.mp hone).2)
    · cases hx
  cases j with
  | number n => exact hdouble _ h
  | string s => exact hdouble _ h
  | _ => cases h

/-! ## Reading -/

theorem read_flat {c : Catalog} {input : Json} (h : input.field? "where" = none) :
    read c input = (Filter.read c input).map fun filter => { filter } := by
  rw [read, h]
  rfl

/-- Order and page stand beside the entries. -/
theorem read_structured {c : Catalog} {input entries : Json}
    (h : input.field? "where" = some entries) :
    read c input = Filter.read c input >>= fun filter =>
      ((input.field? "order").elim (.ok []) (readOrder c)).map fun order =>
        { filter, order,
          limit := (input.field? "limit").bind positiveCount,
          offset := (input.field? "offset").bind positiveCount } := by
  rw [read, h]
  congr 1
  funext filter
  cases input.field? "order" with
  | none => rfl
  | some j =>
    dsimp only [Option.elim]
    cases readOrder c j <;> rfl

theorem key_of_read {c : Catalog} {input : Json} {q : Query} (h : read c input = .ok q) :
    ∀ t ∈ q.order, t.key ∈ c.names := by
  cases hw : input.field? "where" with
  | none =>
    rw [read_flat hw] at h
    obtain ⟨filter, -, rfl⟩ := exists_of_map_ok h
    exact List.forall_mem_nil _
  | some entries =>
    rw [read_structured hw] at h
    obtain ⟨filter, -, h⟩ := exists_of_bind_ok h
    obtain ⟨order, horder, rfl⟩ := exists_of_map_ok h
    cases ho : input.field? "order" with
    | none =>
      rw [ho] at horder
      obtain rfl := Except.ok.inj horder
      exact List.forall_mem_nil _
    | some j =>
      rw [ho] at horder
      exact key_of_readOrder horder

/-- The columns of an order, and the counts of a page. -/
structure IsNormal (c : Catalog) (q : Query) : Prop where
  filter : ∀ n ∈ q.filter, n.All (Leaf.IsNormal c)
  order : ∀ t ∈ q.order, t.key ∈ c.names
  limit : ∀ k ∈ q.limit, 1 ≤ k
  offset : ∀ k ∈ q.offset, 1 ≤ k

/-- **A query that has been read is normal, and it falls back nowhere.** Each of its comparisons is
written, and evaluated, by a rule for its condition and its right side. -/
theorem isNormal_of_read {c : Catalog} {input : Json} {q : Query} (h : read c input = .ok q) :
    q.IsNormal c ∧ ∀ n ∈ q.filter, n.All fun l =>
      l.sql? = some l.sql ∧ ∀ r, l.holds? r = some (l.holds r) := by
  have hfilter : ∀ n ∈ q.filter, n.All (Leaf.IsNormal c) := fun n hn =>
    (Filter.all_of_read (filter_of_read h) n hn).mono fun l hl => hl.isNormal
  refine ⟨?_, fun n hn => (hfilter n hn).mono fun l hl =>
    ⟨hl.isSettled.sql?_eq, hl.isSettled.holds?_eq⟩⟩
  cases hw : input.field? "where" with
  | none =>
    rw [read_flat hw] at h
    obtain ⟨filter, -, rfl⟩ := exists_of_map_ok h
    exact ⟨hfilter, nofun, nofun, nofun⟩
  | some entries =>
    rw [read_structured hw] at h
    obtain ⟨filter, -, h⟩ := exists_of_bind_ok h
    obtain ⟨order, horder, rfl⟩ := exists_of_map_ok h
    have hcount : ∀ (field : Option Json), ∀ k ∈ field.bind positiveCount, 1 ≤ k := by
      intro field k hk
      obtain ⟨j, -, hj⟩ := Option.bind_eq_some_iff.mp hk
      exact one_le_of_positiveCount hj
    refine ⟨hfilter, ?_, hcount _, hcount _⟩
    cases ho : input.field? "order" with
    | none =>
      rw [ho] at horder
      obtain rfl := Except.ok.inj horder
      exact nofun
    | some j =>
      rw [ho] at horder
      exact key_of_readOrder horder

theorem isNormal_of_read_rewritten :
    let c := Catalog.ofList [⟨"id", .serial, false⟩, ⟨"name", .string, false⟩]
    let ids : Record :=
      [("key", .string "id"), ("value", .array [.number (.int 1), .number (.int 2)])]
    let named : Record :=
      [("key", .string "name"), ("condition", .string "<>"), ("value", .array [])]
    let group : Record := [("chain", .string "or"), ("where", .object named)]
    let input := Json.object
      [("where", .array [.object ids, .object group]),
       ("order", .object [("key", .string "name"), ("direction", .string "desc")]),
       ("limit", .string "5")]
    let q : Query :=
      { filter := [
          .leaf ⟨"id", .isIn, .many [.raw (.number (.int 1)), .raw (.number (.int 2))], .and, false⟩,
          .group .or [.leaf ⟨"name", .isNotNull, .one (.raw .null), .and, false⟩]],
        order := [⟨"name", .descending⟩], limit := some 5 }
    read c input = .ok q ∧ q.IsNormal c ∧
      ∀ n ∈ q.filter, n.All fun l => l.sql? = some l.sql ∧ ∀ r, l.holds? r = some (l.holds r) := by
  intro c ids named group input q
  have hids : Filter.readEntry c ids = .ok q.filter[0] := by
    rw [Filter.readEntry_leaf c rfl]
    rfl
  have hnamed : Filter.readEntry c named =
      .ok (.leaf ⟨"name", .isNotNull, .one (.raw .null), .and, false⟩) := by
    rw [Filter.readEntry_leaf c rfl]
    rfl
  have hgroup : Filter.readEntry c group = .ok q.filter[1] := by
    rw [Filter.readEntry_group c rfl, Filter.readEntries, hnamed]
    rfl
  have hfilter : Filter.read c input = .ok q.filter := by
    change Filter.readEntries c (.array _) = _
    rw [Filter.readEntries, Filter.readItems, hids, Filter.readItems, hgroup, Filter.readItems]
    rfl
  have hlimit : (input.field? "limit").bind positiveCount = some 5 := by decide +kernel
  have hq : read c input = .ok q := by
    rw [read_structured rfl, hfilter, hlimit]
    rfl
  exact ⟨hq, isNormal_of_read hq⟩

end Query
end SingleTable
