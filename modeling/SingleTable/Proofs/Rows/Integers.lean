import SingleTable.Proofs.Number.Size
import SingleTable.Rows.Matching

/-! # Integers in rows

An integer in a row is compared as the double nearest to it. The order of two integers is never
turned around, but integers that share their nearest double count as equal.

* `Double.order`: the order of two integers, as far as their nearest doubles show it.
* `Double.order_eq_compare`: it is their own order when one of them is below `2⁵³` in size.
* `Rows.integers_ordered`: it is what comparisons, lists and sorts go by.
-/

namespace SingleTable

/-! ## The order of nearest doubles -/

namespace Double

def order (a b : Int) : Ordering := if ofInt a = ofInt b then .eq else compare a b

theorem order_eq_compare {a b : Int} (h : a.natAbs < 2 ^ 53 ∨ b.natAbs < 2 ^ 53) :
    order a b = compare a b := by
  unfold order
  split
  · rename_i heq
    exact (Int.compare_eq_eq.mpr (ofInt_injective_below h heq)).symm
  · rfl

theorem compare_position_ofInt (a b : Int) :
    compare (ofInt a).position (ofInt b).position = order a b := by
  unfold order
  split
  · rename_i heq
    exact Int.compare_eq_eq.mpr (congrArg position heq)
  · rename_i hne
    have hplace : (ofInt a).position ≠ (ofInt b).position := fun h => hne (position_ofInt_inj.mp h)
    rcases Int.lt_trichotomy a b with hlt | rfl | hgt
    · have hle := position_ofInt_mono hlt.le
      rw [Int.compare_eq_lt.mpr hlt]
      exact Int.compare_eq_lt.mpr (by omega)
    · exact absurd rfl hne
    · have hle := position_ofInt_mono hgt.le
      rw [Int.compare_eq_gt.mpr hgt]
      exact Int.compare_eq_gt.mpr (by omega)

theorem compare?_ofInt (a b : Int) : (ofInt a).compare? (ofInt b) = some (order a b) := by
  rw [compare?, isNaN_ofInt, isNaN_ofInt, compare_position_ofInt]
  rfl

end Double

/-! ## Comparisons -/

theorem Json.compareParam?_int (a b : Int) :
    (number (.int a)).compareParam? (.bigInt b) = some (Double.order a b) :=
  Double.compare?_ofInt a b

/-- Integers that are bound as doubles, being too long for a word, are compared in the same way. -/
theorem Json.compareParam?_number (a : Json) (n : Number) :
    a.compareParam? (.ofNumber n) = a.storedNumber?.bind (·.compare? n.toDouble) := by
  cases n with
  | double x => cases a <;> rfl
  | int n =>
    unfold Param.ofNumber
    dsimp only
    split <;> cases a <;> rfl

theorem Json.compareParam?_ofNumber (a b : Int) :
    (number (.int a)).compareParam? (.ofNumber (.int b)) = some (Double.order a b) :=
  (compareParam?_number _ _).trans (Double.compare?_ofInt a b)

/-- The conditions that compare with one value. -/
def Condition.comparisons : List Condition :=
  [.equals, .notEquals, .greater, .less, .greaterOrEqual, .lessOrEqual]

namespace Leaf

variable {l : Leaf} {r : Record} {a : Int}

theorem compareParam?_field (hcast : l.dateCast = false) (hfield : r.get l.key = .number (.int a))
    {p : Param} {b : Int} (hp : p = .bigInt b) :
    (l.field r).compareParam? (l.castParam p) = some (Double.order a b) := by
  rw [field, castParam, hcast, if_neg Bool.false_ne_true, if_neg Bool.false_ne_true, hfield, hp]
  exact Json.compareParam?_int a b

theorem holds_comparison (hc : l.condition ∈ Condition.comparisons) {x : Operand}
    (hx : l.operand = .one x) :
    l.holds r = ((l.field r).compareParam? (l.castParam x.toParam)).any l.condition.admits := by
  unfold holds
  rw [hx]
  simp only [Condition.comparisons, List.mem_cons, List.not_mem_nil, or_false] at hc
  rcases hc with h | h | h | h | h | h <;> rw [h]

theorem holds_isIn (hc : l.condition = .isIn) {xs : List Operand} (hx : l.operand = .many xs) :
    l.holds r = xs.any fun x => (l.field r).compareParam? (l.castParam x.toParam) == some .eq := by
  unfold holds
  rw [hc, hx]

theorem holds_of_comparison (hcast : l.dateCast = false)
    (hfield : r.get l.key = .number (.int a)) (hc : l.condition ∈ Condition.comparisons)
    {x : Operand} (hx : l.operand = .one x) {b : Int} (hb : x.toParam = .bigInt b) :
    l.holds r = l.condition.admits (Double.order a b) := by
  rw [holds_comparison hc hx, compareParam?_field hcast hfield hb, Option.any_some]

theorem holds_of_membership (hcast : l.dateCast = false)
    (hfield : r.get l.key = .number (.int a)) (hc : l.condition = .isIn) {xs : List Operand}
    (hx : l.operand = .many xs) (hxs : ∀ x ∈ xs, ∃ b, x.toParam = .bigInt b) :
    l.holds r = true ↔ ∃ x ∈ xs, ∃ b, x.toParam = .bigInt b ∧ Double.order a b = .eq := by
  rw [holds_isIn hc hx, List.any_eq_true]
  constructor
  · rintro ⟨x, hmem, hequal⟩
    obtain ⟨b, hb⟩ := hxs x hmem
    rw [compareParam?_field hcast hfield hb] at hequal
    exact ⟨x, hmem, b, hb, by simpa using hequal⟩
  · rintro ⟨x, hmem, b, hb, hequal⟩
    refine ⟨x, hmem, ?_⟩
    rw [compareParam?_field hcast hfield hb, hequal]
    rfl

end Leaf

/-! ## Sorts -/

namespace Rows

theorem ascending_int (d : Dialect) (a b : Int) :
    ascending d (.number (.int a)) (.number (.int b)) = Double.order a b := by
  change (Option.getD ((Json.number (.int a)).compareParam? (.ofNumber (.int b))) _) = _
  rw [Json.compareParam?_ofNumber, Option.getD_some]

/-- An order or its reverse, by the direction of a term. -/
def directed : Direction → Ordering → Ordering
  | .ascending, o => o
  | .descending, o => o.swap

theorem compareBy_int (d : Dialect) {t : OrderTerm} {r s : Record} {a b : Int}
    (hr : r.get t.key = .number (.int a)) (hs : s.get t.key = .number (.int b)) :
    compareBy d t r s = directed t.direction (Double.order a b) := by
  rw [compareBy, hr, hs, ascending_int]
  cases t.direction <;> rfl

/-- Where the nearest double of an integer stands, counted in the direction of a term. -/
def place : Direction → Int → Int
  | .ascending, n => (Double.ofInt n).position
  | .descending, n => -(Double.ofInt n).position

theorem directed_order_ne_gt_iff (dir : Direction) (a b : Int) :
    directed dir (Double.order a b) ≠ .gt ↔ place dir a ≤ place dir b := by
  rw [← Double.compare_position_ofInt]
  cases dir with
  | ascending =>
    dsimp only [directed, place]
    rw [Ne, Int.compare_eq_gt, Int.not_lt]
  | descending =>
    dsimp only [directed, place]
    rw [Ne, Ordering.swap_eq_gt, Int.compare_eq_lt, Int.not_lt]
    omega

theorem pairwise_sort_int (d : Dialect) (t : OrderTerm) {n : Record → Int} {rows : List Record}
    (hrows : ∀ r ∈ rows, r.get t.key = .number (.int (n r))) :
    (sort d [t] rows).Pairwise fun r s =>
      directed t.direction (Double.order (n r) (n s)) ≠ .gt := by
  have hplace : ∀ r ∈ rows, ∀ s ∈ rows, (compare d [t] r s != .gt) =
      decide (place t.direction (n r) ≤ place t.direction (n s)) := by
    intro r hr s hs
    have hcompare : compare d [t] r s = directed t.direction (Double.order (n r) (n s)) := by
      rw [← compareBy_int d (hrows r hr) (hrows s hs)]
      exact Ordering.then_eq
    have hiff := directed_order_ne_gt_iff t.direction (n r) (n s)
    rw [hcompare, Bool.eq_iff_iff, bne_iff_ne, decide_eq_true_iff]
    exact hiff
  have hsorted : ((rows.map fun r => place t.direction (n r)).mergeSort
      fun a b => decide (a ≤ b)).Pairwise fun a b => decide (a ≤ b) = true := by
    apply List.pairwise_mergeSort
    · intro a b c hab hbc
      rw [decide_eq_true_iff] at hab hbc ⊢
      omega
    · intro a b
      rw [Bool.or_eq_true, decide_eq_true_iff, decide_eq_true_iff]
      omega
  rw [← List.map_mergeSort hplace, List.pairwise_map] at hsorted
  change (rows.mergeSort fun r s => compare d [t] r s != .gt).Pairwise _
  refine hsorted.imp fun {r s} h => ?_
  exact (directed_order_ne_gt_iff t.direction (n r) (n s)).mpr (of_decide_eq_true h)

/-! ## Rows of integers -/

/-- **Integers in rows are compared and sorted as their nearest doubles show them**: never the wrong
way round, and exactly as soon as one of two integers is below `2⁵³` in size. -/
theorem integers_ordered {key : String} {n : Record → Int} {rows : List Record}
    (hrows : ∀ r ∈ rows, r.get key = .number (.int (n r))) :
    (∀ a b : Int, Double.order a b = .eq ∨ Double.order a b = Ord.compare a b) ∧
    (∀ a b : Int, a.natAbs < 2 ^ 53 ∨ b.natAbs < 2 ^ 53 →
      Double.order a b = Ord.compare a b) ∧
    (∀ r ∈ rows, ∀ b, (r.get key).compareParam? (.bigInt b) = some (Double.order (n r) b)) ∧
    (∀ r ∈ rows, ∀ l : Leaf, l.key = key → l.dateCast = false →
      (∀ x b, l.condition ∈ Condition.comparisons → l.operand = .one x → x.toParam = .bigInt b →
        l.holds r = l.condition.admits (Double.order (n r) b)) ∧
      (∀ xs, l.condition = .isIn → l.operand = .many xs →
        (∀ x ∈ xs, ∃ b, x.toParam = .bigInt b) →
        (l.holds r = true ↔
          ∃ x ∈ xs, ∃ b, x.toParam = .bigInt b ∧ Double.order (n r) b = .eq))) ∧
    ∀ (d : Dialect) (dir : Direction), (sort d [⟨key, dir⟩] rows).Pairwise fun r s =>
      directed dir (Double.order (n r) (n s)) ≠ .gt := by
  refine ⟨fun a b => ?_, fun a b h => Double.order_eq_compare h, ?_, ?_, ?_⟩
  · unfold Double.order
    split
    · exact .inl rfl
    · exact .inr rfl
  · intro r hr b
    rw [hrows r hr]
    exact Json.compareParam?_int (n r) b
  · intro r hr l hkey hcast
    have hfield : r.get l.key = .number (.int (n r)) := hkey ▸ hrows r hr
    exact ⟨fun x b hc hx hb => Leaf.holds_of_comparison hcast hfield hc hx hb,
      fun xs hc hx hxs => Leaf.holds_of_membership hcast hfield hc hx hxs⟩
  · intro d dir
    exact pairwise_sort_int d ⟨key, dir⟩ hrows

/-- A long integer is told from a short one. -/
theorem integers_ordered_long :
    let row : Record := [("id", .number (.int 9007199254740993))]
    let l : Leaf := ⟨"id", .greater, .one (.number (.ofInt 7)), .and, false⟩
    row.get "id" = .number (.int 9007199254740993) ∧ l.holds row = true := by
  intro row l
  have hrows : ∀ r ∈ [row], r.get "id" = .number (.int 9007199254740993) := by
    intro r hr
    rw [List.mem_singleton.mp hr]
    rfl
  have hmem : row ∈ [row] := List.mem_singleton_self row
  obtain ⟨-, hexact, -, hleaf, -⟩ := integers_ordered hrows
  have hparam : (Operand.number (.ofInt 7)).toParam = .bigInt 7 := by
    have hint : (Double.ofInt 7).isIntegral = true := by decide +kernel
    have hfinite : (Double.ofInt 7).isFinite = true := by decide +kernel
    have htruncate : (Double.ofInt 7).truncate = 7 := by decide +kernel
    rw [Operand.toParam, Operand.numberParam, hfinite, hint, htruncate]
    rfl
  refine ⟨hrows row hmem, ?_⟩
  rw [(hleaf row hmem l rfl rfl).1 _ 7 (by decide) rfl hparam, hexact _ 7 (.inr (by decide))]
  rfl

/-- `2⁵³` and the integer after it share their nearest double, and count as equal. -/
theorem integers_confused :
    (Json.number (.int 9007199254740992)).compareParam? (.bigInt 9007199254740993) = some .eq ∧
      Ord.compare (9007199254740992 : Int) 9007199254740993 = .lt := by
  have hsame : Double.ofInt 9007199254740992 = Double.ofInt 9007199254740993 := by decide +kernel
  rw [Json.compareParam?_int, Double.order, if_pos hsame]
  exact ⟨rfl, rfl⟩

end Rows

end SingleTable
