import SingleTable.Rows.Matching

/-! # Lists of operands

A condition that is given a list asks whether the field of a row equals one of its items.

* `Json.IsSingle`: a document that stands for one operand.
* `Condition.Lists`: the conditions that take a list of a certain length as it is.
* `Leaf.build_singleton`: a list of one operand stands for that operand.
* `Leaf.holds_members_iff`: a list holds of the rows that an equality with one of its items holds of.
* `Leaf.list_is_membership`: all of this for the leaves that are built from documents.
-/

namespace SingleTable

/-! ## Lists in documents -/

/-- A document that no list of operands is read from. -/
def Json.IsSingle (j : Json) : Prop := ∀ items, Operand.decode j ≠ .raw (.array items)

/-- Membership takes every list, and equality takes one of two items or more for membership. -/
def Condition.Lists (c : Condition) (length : Nat) : Prop :=
  c = .isIn ∨ c = .equals ∧ 2 ≤ length

namespace RightSide

theorem ofJson_array (items : List Json) :
    ofJson (.array items) = many (items.map Operand.decode) := rfl

theorem ofJson_of_isSingle {j : Json} (h : j.IsSingle) : ofJson j = one (Operand.decode j) := by
  unfold ofJson
  split
  · rename_i items hitems
    exact absurd hitems (h items)
  · rfl

theorem settle_singleton (key : String) (c : Condition) (x : Operand) :
    settle key c (many [x]) = settle key c (one x) := by
  cases c <;> rfl

theorem settle_of_lists (key : String) {c : Condition} {xs : List Operand}
    (h : c.Lists xs.length) : settle key c (many xs) = .ok (.isIn, many xs) := by
  rcases h with rfl | ⟨rfl, hlength⟩
  · rfl
  · match xs with
    | [] | [_] => simp at hlength
    | _ :: _ :: _ => rfl

end RightSide

namespace Leaf

section Built
variable (key : String) (chain : Chain) (dateCast : Bool)

/-- The comparison with a list. -/
def members (xs : List Operand) : Leaf := ⟨key, .isIn, .many xs, chain, dateCast⟩

/-- The equality with an operand, which tests for null if that is the operand. -/
def equality (x : Operand) : Leaf :=
  ⟨key, if x.isNull then .isNull else .equals, .one x, chain, dateCast⟩

theorem build_singleton (c : Condition) {x : Json} (h : x.IsSingle) :
    build key c (.array [x]) chain dateCast = build key c x chain dateCast := by
  unfold build
  rw [RightSide.ofJson_array, RightSide.ofJson_of_isSingle h, List.map_singleton,
    RightSide.settle_singleton]

theorem build_of_lists {c : Condition} {xs : List Json} (h : c.Lists xs.length) :
    build key c (.array xs) chain dateCast =
      .ok (members key chain dateCast (xs.map Operand.decode)) := by
  have hlength : c.Lists (xs.map Operand.decode).length := by rwa [List.length_map]
  rw [build, RightSide.ofJson_array, RightSide.settle_of_lists key hlength]
  rfl

theorem build_equals {x : Json} (h : x.IsSingle) :
    build key .equals x chain dateCast = .ok (equality key chain dateCast (Operand.decode x)) := by
  rw [build, RightSide.ofJson_of_isSingle h]
  rfl

/-! ## Lists on rows -/

/-- Nothing is equal to null, cut to its date or not. -/
theorem compareParam?_castParam_null (l : Leaf) (j : Json) :
    j.compareParam? (l.castParam .null) = none := by
  have hcast : l.castParam .null = .null := by
    unfold castParam
    split <;> rfl
  rw [hcast]
  cases j <;> rfl

/-- What an equality with an operand that is not null asks of a row. -/
theorem holds_equality_iff (x : Operand) (r : Record) :
    x.isNull = false ∧ (equality key chain dateCast x).holds r = true ↔
      ((equality key chain dateCast x).field r).compareParam?
        ((equality key chain dateCast x).castParam x.toParam) = some .eq := by
  cases hx : x.isNull with
  | true =>
    have hparam : x.toParam = .null := by
      cases x with
      | raw j =>
        obtain rfl := Json.isNull_iff.mp hx
        rfl
      | _ => cases hx
    rw [hparam, compareParam?_castParam_null]
    exact iff_of_false (fun h => nomatch h.1) nofun
  | false =>
    have hholds : (equality key chain dateCast x).holds r =
        (((equality key chain dateCast x).field r).compareParam?
          ((equality key chain dateCast x).castParam x.toParam)).any Condition.equals.admits := by
      unfold equality
      rw [hx]
      rfl
    rw [hholds]
    generalize Json.compareParam? _ _ = o
    cases o <;> simp [Condition.admits]

/-- **A list holds of the rows that an equality with one of its items holds of.** -/
theorem holds_members_iff (xs : List Operand) (r : Record) :
    (members key chain dateCast xs).holds r = true ↔
      ∃ x ∈ xs, x.isNull = false ∧ (equality key chain dateCast x).holds r = true := by
  have hany : (members key chain dateCast xs).holds r = xs.any fun x =>
      ((equality key chain dateCast x).field r).compareParam?
        ((equality key chain dateCast x).castParam x.toParam) == some .eq := rfl
  rw [hany, List.any_eq_true]
  simp only [holds_equality_iff, beq_iff_eq]

theorem holds_members_congr {xs ys : List Json} (h : ∀ x, x ∈ xs ↔ x ∈ ys) (r : Record) :
    (members key chain dateCast (xs.map Operand.decode)).holds r =
      (members key chain dateCast (ys.map Operand.decode)).holds r := by
  rw [Bool.eq_iff_iff, holds_members_iff, holds_members_iff]
  simp only [List.mem_map, h]

end Built

/-- **A list of operands means membership.** A list of one operand builds the leaf of that operand.
Any other list, and every list for `IN`, holds of a row just when an equality with one of its items
does, null aside; so order and repetition say nothing, and no row satisfies the empty list. -/
theorem list_is_membership (key : String) (chain : Chain) (dateCast : Bool) (r : Record) :
    (∀ (c : Condition) (x : Json), x.IsSingle →
      build key c (.array [x]) chain dateCast = build key c x chain dateCast) ∧
    ∀ (c : Condition) (xs : List Json), (∀ x ∈ xs, x.IsSingle) → c.Lists xs.length →
      ∃ l, build key c (.array xs) chain dateCast = .ok l ∧
        (l.holds r = true ↔ ∃ x ∈ xs, (Operand.decode x).isNull = false ∧
          ∃ e, build key .equals x chain dateCast = .ok e ∧ e.holds r = true) ∧
        (∀ (c' : Condition) (ys : List Json), c'.Lists ys.length → (∀ x, x ∈ xs ↔ x ∈ ys) →
          ∃ k, build key c' (.array ys) chain dateCast = .ok k ∧ k.holds r = l.holds r) ∧
        (xs = [] → l.holds r = false) := by
  refine ⟨fun c x hx => build_singleton key chain dateCast c hx, fun c xs hxs hc => ?_⟩
  refine ⟨_, build_of_lists key chain dateCast hc, ?_, ?_, ?_⟩
  · rw [holds_members_iff]
    constructor
    · rintro ⟨_, hmem, hnull, hholds⟩
      obtain ⟨x, hx, rfl⟩ := List.mem_map.mp hmem
      exact ⟨x, hx, hnull, _, build_equals key chain dateCast (hxs x hx), hholds⟩
    · rintro ⟨x, hx, hnull, e, he, hholds⟩
      obtain rfl := Except.ok.inj ((build_equals key chain dateCast (hxs x hx)).symm.trans he)
      exact ⟨_, List.mem_map_of_mem hx, hnull, hholds⟩
  · intro c' ys hc' hmem
    exact ⟨_, build_of_lists key chain dateCast hc',
      (holds_members_congr key chain dateCast hmem r).symm⟩
  · rintro rfl
    rfl

theorem list_is_membership_mixed :
    let five := Json.object [("string", .number (.int 5))]
    let xs := [.null, .string "a", five, .string "a"]
    let r : Record := [("name", .string "5")]
    (∀ x ∈ xs, x.IsSingle) ∧ Condition.equals.Lists xs.length ∧
      build "name" .like (.array [five]) .or false = build "name" .like five .or false ∧
      ∃ l, build "name" .equals (.array xs) .or false = .ok l ∧ l.holds r = true ∧
        ∃ k, build "name" .isIn (.array [five, .string "a", .null]) .or false = .ok k ∧
          k.holds r = true := by
  intro five xs r
  have hfive : Operand.decode five = .text "5" := by rfl
  have hsingle : ∀ x ∈ xs, x.IsSingle := by
    intro x hx items hitems
    simp only [xs, List.mem_cons, List.not_mem_nil, or_false] at hx
    rcases hx with rfl | rfl | rfl | rfl
    · cases hitems
    · cases hitems
    · rw [hfive] at hitems
      cases hitems
    · cases hitems
  have hlists : Condition.equals.Lists xs.length := .inr ⟨rfl, by decide⟩
  have hmem : five ∈ xs := by simp [xs]
  have hitems : ∀ x, x ∈ xs ↔ x ∈ [five, .string "a", .null] := by
    intro x
    simp only [xs, List.mem_cons, List.not_mem_nil, or_false]
    constructor
    · rintro (h | h | h | h) <;> simp [h]
    · rintro (h | h | h) <;> simp [h]
  have hequal : ∃ e, build "name" .equals five .or false = .ok e ∧ e.holds r = true := by
    refine ⟨_, build_equals "name" .or false (hsingle five hmem), ?_⟩
    rw [hfive]
    decide +kernel
  obtain ⟨hone, hmany⟩ := list_is_membership "name" .or false r
  obtain ⟨l, hl, hiff, hsame, -⟩ := hmany .equals xs hsingle hlists
  have hholds : l.holds r = true := hiff.mpr ⟨five, hmem, by rw [hfive]; rfl, hequal⟩
  obtain ⟨k, hk, hkl⟩ := hsame .isIn [five, .string "a", .null] (.inl rfl) hitems
  exact ⟨hsingle, hlists, hone .like five (hsingle five hmem), l, hl, hholds, k, hk,
    hkl.trans hholds⟩

end Leaf

end SingleTable
