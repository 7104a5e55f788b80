import Mathlib.Data.String.Basic
import Mathlib.Tactic.FinCases
import SingleTable.Proofs.Json.Equality
import SingleTable.Proofs.Number.Order
import SingleTable.Proofs.Rows.Integers

/-! # The order of rows

Two stored values are ordered as numbers when one of them is a number or a truth value and the other
one reads as a number, and as texts otherwise. Turned around, the order is the reverse; but it goes
around in circles as soon as texts that read as numbers stand beside numbers.

* `Text.compare_eq_compare`: texts are ordered by code point, as strings are.
* `Rows.ascending_swap`: the order of two values and the order of the same two turned around.
* `Rows.IsUniform`: rows with values of one kind under a key.
* `Rows.transCmp_compare`: the order of such rows, by any number of keys, is transitive.
* `Rows.compare_preorder`: what a sort may rely on.
-/

namespace SingleTable

/-! ## Texts -/

namespace Text

theorem compareChars_eq_lt_iff {cs ds : List Char} : compareChars cs ds = .lt ↔ cs < ds := by
  induction cs generalizing ds with
  | nil => cases ds <;> simp [compareChars]
  | cons c cs ih =>
    cases ds with
    | nil => simp [compareChars]
    | cons d ds =>
      have hlt : c.toNat < d.toNat ↔ c < d := by rw [Char.lt_def, UInt32.lt_iff_toNat_lt]; rfl
      rw [compareChars, Ordering.then_eq_lt, Nat.compare_eq_lt, Nat.compare_eq_eq, hlt,
        Char.toNat_inj, ih, List.cons_lt_cons_iff]

theorem compareChars_eq_eq_iff {cs ds : List Char} : compareChars cs ds = .eq ↔ cs = ds := by
  induction cs generalizing ds with
  | nil => cases ds <;> simp [compareChars]
  | cons c cs ih =>
    cases ds with
    | nil => simp [compareChars]
    | cons d ds =>
      rw [compareChars, Ordering.then_eq_eq, Nat.compare_eq_eq, Char.toNat_inj, ih, List.cons.injEq]

theorem compare_eq_compare (s t : String) : compare s t = Ord.compare s t := by
  have hlt : compare s t = .lt ↔ Ord.compare s t = .lt := by
    rw [compare, compareChars_eq_lt_iff, ← String.lt_iff_toList_lt, compare_lt_iff_lt]
  have heq : compare s t = .eq ↔ Ord.compare s t = .eq := by
    rw [compare, compareChars_eq_eq_iff, String.toList_inj, compare_eq_iff_eq]
  cases h : compare s t <;> cases h' : Ord.compare s t <;> simp_all

end Text

/-! ## Two values -/

namespace Json

/-- Numbers and truth values are compared by size with whatever reads as a number. -/
def isNumeral : Json → Bool
  | number _ | bool _ => true
  | _ => false

theorem exists_of_isNumeral_false {a : Json} (ha : a ≠ .null) (h : a.isNumeral = false) :
    (∃ s, a = string s) ∨ (∃ xs, a = array xs) ∨ ∃ fs, a = object fs := by
  cases a with
  | null => exact absurd rfl ha
  | bool b => cases h
  | number n => cases h
  | string s => exact .inl ⟨s, rfl⟩
  | array xs => exact .inr (.inl ⟨xs, rfl⟩)
  | object fs => exact .inr (.inr ⟨fs, rfl⟩)

/-- The order of two values as numbers, if both are or read as numbers. -/
def compareNumbers? (a b : Json) : Option Ordering :=
  a.storedNumber?.bind fun x => b.storedNumber?.bind fun y => x.compare? y

theorem compareNumbers?_swap (a b : Json) :
    (a.compareNumbers? b).map Ordering.swap = b.compareNumbers? a := by
  unfold compareNumbers?
  cases a.storedNumber? with
  | none => cases b.storedNumber? <;> rfl
  | some x =>
    cases b.storedNumber? with
    | none => rfl
    | some y => exact Double.compare?_swap x y

theorem compare?_ofBool (a b : Bool) :
    (Double.ofBool a).compare? (.ofBool b) = some (compare a b) := by
  have hsmall : ∀ m n : Int, m.natAbs < 2 ^ 53 →
      (Double.ofInt m).compare? (.ofInt n) = some (compare m n) := by
    intro m n hm
    rw [Double.compare?_ofInt, Double.order_eq_compare (.inl hm)]
  cases a <;> cases b <;> exact hsmall _ _ (by decide)

theorem compareParam?_of_isNumeral {a b : Json} (ha : a ≠ .null) (hb : b ≠ .null)
    (h : a.isNumeral = true ∨ b.isNumeral = true) :
    a.compareParam? (.ofJson b) = a.compareNumbers? b := by
  cases b with
  | null => exact absurd rfl hb
  | bool t =>
    cases a with
    | null => exact absurd rfl ha
    | bool s => exact (compare?_ofBool s t).symm
    | _ => rfl
  | number n => exact compareParam?_number a n
  | _ =>
    have ha' : a.isNumeral = true := h.resolve_right Bool.false_ne_true
    cases a <;> first | rfl | cases ha'

end Json

namespace Rows
open Json

variable {d : Dialect} {a b : Json}

theorem ascending_of_ne_null (ha : a ≠ .null) (hb : b ≠ .null) :
    ascending d a b =
      (a.compareParam? (.ofJson b)).getD (Text.compare a.storedText b.storedText) := by
  rw [ascending, isNull_eq_false_iff.mpr ha, isNull_eq_false_iff.mpr hb]

theorem ascending_of_isNumeral (ha : a ≠ .null) (hb : b ≠ .null)
    (h : a.isNumeral = true ∨ b.isNumeral = true) :
    ascending d a b = (a.compareNumbers? b).getD (Text.compare a.storedText b.storedText) := by
  rw [ascending_of_ne_null ha hb, compareParam?_of_isNumeral ha hb h]

/-- Only objects are compared as documents. -/
theorem ascending_of_object (fs gs : Record) :
    ascending d (object fs) (object gs) = if (object fs).same (object gs) then Ordering.eq
      else Text.compare (object fs).compact (object gs).compact := by
  change Option.getD (if (object fs).same (object gs) then some Ordering.eq else none) _ = _
  split <;> rfl

theorem ascending_of_text (ha : a ≠ .null) (hb : b ≠ .null) (ha' : a.isNumeral = false)
    (hb' : b.isNumeral = false)
    (h : ∀ fs gs, a = object fs → b = object gs → a.same b = true → a.compact = b.compact) :
    ascending d a b = Text.compare a.storedText b.storedText := by
  obtain ⟨s, rfl⟩ | ⟨xs, rfl⟩ | ⟨fs, rfl⟩ := exists_of_isNumeral_false ha ha' <;>
    obtain ⟨t, rfl⟩ | ⟨ys, rfl⟩ | ⟨gs, rfl⟩ := exists_of_isNumeral_false hb hb' <;> try rfl
  rw [ascending_of_object]
  split
  · rename_i hsame
    change _ = Text.compare (object fs).compact (object gs).compact
    rw [h fs gs rfl rfl hsame, Text.compare_eq_compare, compare_eq_iff_eq.mpr rfl]
  · rfl

theorem compare_text_swap (s t : String) : Text.compare t s = (Text.compare s t).swap := by
  rw [Text.compare_eq_compare, Text.compare_eq_compare]
  exact Std.OrientedOrd.eq_swap

/-- Two values turned around are ordered in reverse. -/
theorem ascending_swap (ha : a.IsProper) (hb : b.IsProper) :
    ascending d b a = (ascending d a b).swap := by
  by_cases ha' : a = .null
  · cases b <;> cases d <;> rw [ha'] <;> rfl
  by_cases hb' : b = .null
  · cases a <;> cases d <;> rw [hb'] <;> rfl
  by_cases h : a.isNumeral = true ∨ b.isNumeral = true
  · rw [ascending_of_isNumeral ha' hb' h, ascending_of_isNumeral hb' ha' h.symm,
      ← compareNumbers?_swap a b, compare_text_swap a.storedText]
    cases a.compareNumbers? b <;> rfl
  · rw [not_or, Bool.not_eq_true, Bool.not_eq_true] at h
    by_cases hobjects : ∃ fs gs, a = object fs ∧ b = object gs
    · obtain ⟨fs, gs, rfl, rfl⟩ := hobjects
      rw [ascending_of_object, ascending_of_object, same_comm hb ha, compare_text_swap]
      split <;> rfl
    · have hne : ∀ fs gs, a = object fs → b = object gs → False := fun fs gs hfs hgs =>
        hobjects ⟨fs, gs, hfs, hgs⟩
      rw [ascending_of_text ha' hb' h.1 h.2 fun fs gs hfs hgs => (hne fs gs hfs hgs).elim,
        ascending_of_text hb' ha' h.2 h.1 fun fs gs hfs hgs => (hne gs fs hgs hfs).elim,
        compare_text_swap]

/-! ## Values of one kind -/

end Rows

namespace Json

/-- The values that have a size, and null. -/
def IsSized : Json → Prop
  | null | bool _ => True
  | number n => n.IsFinite
  | _ => False

/-- Where the number in a stored value stands among the doubles. -/
def place (j : Json) : Int := (j.storedNumber?.map Double.position).getD 0

theorem IsSized.exists_storedNumber {j : Json} (h : j.IsSized) (hne : j ≠ .null) :
    j.isNumeral = true ∧ ∃ x, j.storedNumber? = some x ∧ x.isNaN = false := by
  cases j with
  | null => exact absurd rfl hne
  | bool b => exact ⟨rfl, .ofBool b, rfl, Double.isNaN_ofInt _⟩
  | number n => exact ⟨rfl, n.toDouble, rfl, Number.isNaN_toDouble h⟩
  | _ => cases h

theorem compareNumbers?_of_isSized {a b : Json} (ha : a.IsSized) (hb : b.IsSized)
    (ha' : a ≠ .null) (hb' : b ≠ .null) :
    a.compareNumbers? b = some (compare a.place b.place) := by
  obtain ⟨-, x, hx, hxnan⟩ := ha.exists_storedNumber ha'
  obtain ⟨-, y, hy, hynan⟩ := hb.exists_storedNumber hb'
  rw [compareNumbers?, place, place, hx, hy]
  change x.compare? y = _
  rw [Double.compare?, hxnan, hynan]
  rfl

end Json

namespace Rows
open Json

variable {d : Dialect} {a b : Json}

/-- Null stands on one side of all other values. -/
def nullRank (d : Dialect) (j : Json) : Nat := if j.isNull = d.nullsFirst then 0 else 1

theorem ascending_of_isSized (ha : a.IsSized) (hb : b.IsSized) :
    ascending d a b =
      (Ord.compare (nullRank d a) (nullRank d b)).then (Ord.compare a.place b.place) := by
  by_cases ha' : a = .null
  · cases b <;> cases d <;> rw [ha'] <;> rfl
  by_cases hb' : b = .null
  · cases a <;> cases d <;> rw [hb'] <;> rfl
  have hnumeral := (ha.exists_storedNumber ha').1
  rw [ascending_of_isNumeral ha' hb' (.inl hnumeral), compareNumbers?_of_isSized ha hb ha' hb',
    nullRank, nullRank, isNull_eq_false_iff.mpr ha', isNull_eq_false_iff.mpr hb',
    Nat.compare_eq_eq.mpr rfl]
  rfl

theorem ascending_of_isNumeral_false (ha : a.isNumeral = false) (hb : b.isNumeral = false)
    (h : ∀ fs gs, a = object fs → b = object gs → a.same b = true → a.compact = b.compact) :
    ascending d a b =
      (Ord.compare (nullRank d a) (nullRank d b)).then
        (Ord.compare a.storedText b.storedText) := by
  by_cases ha' : a = .null
  · cases b <;> cases d <;> rw [ha'] <;> rfl
  by_cases hb' : b = .null
  · cases a <;> cases d <;> rw [hb'] <;> rfl
  rw [ascending_of_text ha' hb' ha hb h, Text.compare_eq_compare,
    nullRank, nullRank, isNull_eq_false_iff.mpr ha', isNull_eq_false_iff.mpr hb',
    Nat.compare_eq_eq.mpr rfl]
  rfl

/-- Rows whose values under a key, nulls aside, are numbers and truth values, or texts and
documents, where objects that count as equal are written alike. -/
inductive IsUniform (key : String) (rows : List Record) : Prop
  | sizes (h : ∀ r ∈ rows, (r.get key).IsSized)
  | texts (h : ∀ r ∈ rows, (r.get key).isNumeral = false)
      (halike : ∀ r ∈ rows, ∀ s ∈ rows, ∀ fs gs, r.get key = object fs → s.get key = object gs →
        (object fs).same (object gs) = true → (object fs).compact = (object gs).compact)

variable {rows : List Record}

theorem transCmp_ascending {key : String} (d : Dialect) (h : IsUniform key rows) :
    Std.TransCmp fun r s : {r // r ∈ rows} => ascending d (r.1.get key) (s.1.get key) := by
  cases h with
  | sizes h =>
    have heq : (fun r s : {r // r ∈ rows} => ascending d (r.1.get key) (s.1.get key)) =
        compareLex (compareOn fun r => nullRank d (r.1.get key))
          (compareOn fun r => (r.1.get key).place) := by
      funext r s
      exact ascending_of_isSized (h r r.2) (h s s.2)
    rw [heq]
    infer_instance
  | texts h halike =>
    have heq : (fun r s : {r // r ∈ rows} => ascending d (r.1.get key) (s.1.get key)) =
        compareLex (compareOn fun r => nullRank d (r.1.get key))
          (compareOn fun r => (r.1.get key).storedText) := by
      funext r s
      refine ascending_of_isNumeral_false (h r r.2) (h s s.2) fun fs gs hfs hgs hsame => ?_
      rw [hfs, hgs] at hsame ⊢
      exact halike r r.2 s s.2 fs gs hfs hgs hsame
    rw [heq]
    infer_instance

theorem transCmp_compareBy {t : OrderTerm} (d : Dialect) (h : IsUniform t.key rows) :
    Std.TransCmp fun r s : {r // r ∈ rows} => compareBy d t r.1 s.1 := by
  have htrans := transCmp_ascending d h
  obtain ⟨key, direction⟩ := t
  cases direction with
  | ascending => exact htrans
  | descending =>
    have heq : (fun r s : {r // r ∈ rows} => compareBy d ⟨key, .descending⟩ r.1 s.1) =
        fun r s => ascending d (s.1.get key) (r.1.get key) := by
      funext r s
      exact (htrans.eq_swap (a := s) (b := r)).symm
    rw [heq]
    exact Std.TransCmp.opposite

theorem compare_cons (d : Dialect) (t : OrderTerm) (order : List OrderTerm) (r s : Record) :
    compare d (t :: order) r s = (compareBy d t r s).then (compare d order r s) := rfl

/-- By the first key that tells two rows apart, uniform rows are in one order. -/
theorem transCmp_compare {order : List OrderTerm} (d : Dialect)
    (h : ∀ t ∈ order, IsUniform t.key rows) :
    Std.TransCmp fun r s : {r // r ∈ rows} => compare d order r.1 s.1 := by
  induction order with
  | nil => exact { eq_swap := rfl, isLE_trans := fun _ _ => rfl }
  | cons t order ih =>
    have hfirst := transCmp_compareBy d (h t List.mem_cons_self)
    have hrest := ih fun u hu => h u (List.mem_cons_of_mem t hu)
    exact inferInstanceAs (Std.TransCmp (compareLex
      (fun r s : {r // r ∈ rows} => compareBy d t r.1 s.1)
      (fun r s : {r // r ∈ rows} => compare d order r.1 s.1)))

theorem compare_ne_gt_trans {order : List OrderTerm}
    (htrans : Std.TransCmp fun r s : {r // r ∈ rows} => compare d order r.1 s.1)
    {r s u : {r // r ∈ rows}} (hrs : compare d order r.1 s.1 ≠ .gt)
    (hsu : compare d order s.1 u.1 ≠ .gt) : compare d order r.1 u.1 ≠ .gt :=
  Ordering.isLE_iff_ne_gt.mp (htrans.isLE_trans (Ordering.isLE_iff_ne_gt.mpr hrs)
    (Ordering.isLE_iff_ne_gt.mpr hsu))

/-! ## The comparison of a sort -/

theorem compareBy_swap {t : OrderTerm} (d : Dialect) {r s : Record} (hr : (r.get t.key).IsProper)
    (hs : (s.get t.key).IsProper) : compareBy d t s r = (compareBy d t r s).swap := by
  rw [compareBy, compareBy, ascending_swap hr hs]
  cases t.direction <;> rfl

theorem compare_swap {order : List OrderTerm} (d : Dialect) {r s : Record}
    (h : ∀ t ∈ order, (r.get t.key).IsProper ∧ (s.get t.key).IsProper) :
    compare d order s r = (compare d order r s).swap := by
  induction order with
  | nil => rfl
  | cons t order ih =>
    obtain ⟨hr, hs⟩ := h t List.mem_cons_self
    rw [compare_cons, compare_cons, Ordering.swap_then, compareBy_swap d hr hs,
      ih fun u hu => h u (List.mem_cons_of_mem t hu)]

/-- **What a sort may rely on.** Two rows turned around are ordered in reverse, whatever they hold.
The order is transitive on rows that hold, under each key of it, values of one kind: numbers and
truth values, or texts and documents; nulls may stand anywhere. -/
theorem compare_preorder (d : Dialect) (order : List OrderTerm) :
    (∀ r s : Record, (∀ t ∈ order, (r.get t.key).IsProper ∧ (s.get t.key).IsProper) →
      compare d order s r = (compare d order r s).swap) ∧
    ∀ rows : List Record, (∀ t ∈ order, IsUniform t.key rows) →
      ∀ r ∈ rows, ∀ s ∈ rows, ∀ u ∈ rows,
        compare d order r s ≠ .gt → compare d order s u ≠ .gt → compare d order r u ≠ .gt := by
  refine ⟨fun r s h => compare_swap d h, fun rows h r hr s hs u hu hrs hsu => ?_⟩
  exact compare_ne_gt_trans (transCmp_compare d h) (r := ⟨r, hr⟩) (s := ⟨s, hs⟩) (u := ⟨u, hu⟩)
    hrs hsu

theorem compare_preorder_mixed :
    let order : List OrderTerm := [⟨"n", .descending⟩, ⟨"t", .ascending⟩]
    let r : Record := [("n", .bool true), ("t", .array [.null])]
    let s : Record := [("t", .object [("b", .null), ("a", .bool false)]), ("n", .number (.int 1))]
    let u : Record := [("n", .null), ("t", .string "x")]
    compare .mysql order s r = (compare .mysql order r s).swap ∧
      compare .mysql order r s ≠ .gt ∧ compare .mysql order s u ≠ .gt ∧
      compare .mysql order r u ≠ .gt := by
  intro order r s u
  have hproper : ∀ t ∈ order, (r.get t.key).IsProper ∧ (s.get t.key).IsProper := by
    simp [order, r, s, Record.get, Record.get?, List.lookup_cons, IsProper, ItemsProper,
      FieldsProper, Record.keys]
  have huniform : ∀ t ∈ order, IsUniform t.key [r, s, u] := by
    intro t ht
    rcases List.mem_pair.mp ht with rfl | rfl
    · refine .sizes fun v hv => ?_
      fin_cases hv <;> trivial
    · refine .texts (fun v hv => ?_) fun v hv w hw fs gs hfs hgs _ => ?_
      · fin_cases hv <;> rfl
      · fin_cases hv <;> fin_cases hw <;> cases hfs <;> cases hgs
        rfl
  obtain ⟨hswap, htrans⟩ := compare_preorder .mysql order
  have hrs : compare .mysql order r s ≠ .gt := by decide +kernel
  have hsu : compare .mysql order s u ≠ .gt := by decide +kernel
  exact ⟨hswap r s hproper, hrs, hsu,
    htrans [r, s, u] huniform r (by simp) s (by simp) u (by simp) hrs hsu⟩

/-- Two texts, and a number between them, go around in a circle. -/
theorem compare_circle :
    let order : List OrderTerm := [⟨"k", .ascending⟩]
    let row (j : Json) : Record := [("k", j)]
    compare .postgres order (row (.string "10")) (row (.string "9")) ≠ .gt ∧
      compare .postgres order (row (.string "9")) (row (.number (.int 9))) ≠ .gt ∧
      compare .postgres order (row (.string "10")) (row (.number (.int 9))) = .gt := by
  decide +kernel

end Rows

end SingleTable
