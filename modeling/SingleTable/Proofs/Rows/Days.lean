import SingleTable.Proofs.Calendar.Written
import SingleTable.Proofs.Filter.Normal
import SingleTable.Proofs.Rows.Ordering

/-! # Days in rows

A comparison that is asked to look at dates compares the texts of two days. For years that are
written with four digits that is the order of the days in time; equal texts are texts of one day in
every year.

* `Json.day?`, `Param.day?`: the day that a stored value or a parameter denotes.
* `Condition.Relates`: a condition between the numbers of two days.
* `Leaf.compareParam?_cast`: what a comparison of dates makes of its two sides.
* `Leaf.days_compared`: the rows that it holds of.
-/

namespace SingleTable
open Calendar

/-! ## Days -/

def Json.day? (j : Json) : Option Date := j.storedTimestamp?.map (·.date)

def Param.day? : Param → Option Date
  | .null | .default => none
  | .date d => some d
  | .timestamp t => some t.date
  | p => p.toJson.day?

theorem Json.calendarDate?_eq_map (j : Json) : j.calendarDate? = j.day?.map Date.text := by
  rw [calendarDate?, day?, Option.map_map]
  rfl

theorem Param.calendarDate?_eq_map (p : Param) : p.calendarDate? = p.day?.map Date.text := by
  cases p with
  | null | default | date | timestamp => rfl
  | _ => exact Json.calendarDate?_eq_map _

theorem Calendar.Date.text_injective {d e : Date} (h : d.text = e.text) : d = e := by
  have hd := Timestamp.ofText?_date d
  rw [h, Timestamp.ofText?_date] at hd
  exact congrArg Timestamp.date (Option.some.inj hd).symm

theorem Calendar.Date.compare_text_eq_iff {d e : Date} : Text.compare d.text e.text = .eq ↔ d = e := by
  rw [Text.compare_eq_compare, compare_eq_iff_eq]
  exact ⟨text_injective, congrArg text⟩

theorem Calendar.Date.dayNumber_inj {d e : Date} : d.dayNumber = e.dayNumber ↔ d = e := by
  rw [← Int.compare_eq_eq, compare_dayNumber, compare_eq_eq_iff]

theorem Calendar.Date.compare_text_of_isCommon {d e : Date} (hd : d.IsCommon) (he : e.IsCommon) :
    Text.compare d.text e.text = Ord.compare d.dayNumber e.dayNumber := by
  rw [compare_text hd he, compare_dayNumber]

/-! ## Conditions between days -/

namespace Condition

/-- Does a condition hold between two days, counted in time? -/
def Relates : Condition → Int → Int → Prop
  | equals, m, n => m = n
  | notEquals, m, n => m ≠ n
  | greater, m, n => n < m
  | less, m, n => m < n
  | greaterOrEqual, m, n => n ≤ m
  | lessOrEqual, m, n => m ≤ n
  | _, _, _ => False

theorem admits_compare_iff (c : Condition) (m n : Int) :
    c.admits (compare m n) = true ↔ c.Relates m n := by
  have hlt := Int.compare_eq_lt (a := m) (b := n)
  have heq := Int.compare_eq_eq (a := m) (b := n)
  have hgt := Int.compare_eq_gt (a := m) (b := n)
  cases c <;> simp [admits, Relates, heq, hgt, hlt]

/-- Equality and its negation only need to know whether two values are equal. -/
theorem admits_congr {c : Condition} (hc : c = .equals ∨ c = .notEquals) {o o' : Ordering}
    (h : o = .eq ↔ o' = .eq) : c.admits o = c.admits o' := by
  have hbeq : (o == .eq) = (o' == .eq) := by
    rw [Bool.eq_iff_iff, beq_iff_eq, beq_iff_eq, h]
  rcases hc with rfl | rfl
  · exact hbeq
  · exact congrArg not hbeq

end Condition

/-! ## Comparisons of dates -/

namespace Leaf

variable {l : Leaf}

theorem field_of_dateCast (hcast : l.dateCast = true) (r : Record) :
    l.field r = (r.get l.key).day?.elim .null (.string ·.text) := by
  rw [field, if_pos hcast, Json.calendarDate?_eq_map]
  cases (r.get l.key).day? <;> rfl

theorem castParam_of_dateCast (hcast : l.dateCast = true) (p : Param) :
    l.castParam p = p.day?.elim .null (.text ·.text) := by
  rw [castParam, if_pos hcast, Param.calendarDate?_eq_map]
  cases p.day? <;> rfl

/-- A comparison of dates compares the texts of days, and a side without a day is null. -/
theorem compareParam?_cast (hcast : l.dateCast = true) (r : Record) (p : Param) :
    (l.field r).compareParam? (l.castParam p) =
      (r.get l.key).day?.bind fun d => p.day?.map fun e => Text.compare d.text e.text := by
  rw [field_of_dateCast hcast, castParam_of_dateCast hcast]
  cases (r.get l.key).day? <;> cases p.day? <;> rfl

theorem holds_comparison_iff (hcast : l.dateCast = true) (hc : l.condition ∈ Condition.comparisons)
    {x : Operand} (hx : l.operand = .one x) {r : Record} {d e : Date}
    (hd : (r.get l.key).day? = some d) (he : x.toParam.day? = some e)
    (hyears : l.condition = .equals ∨ l.condition = .notEquals ∨ d.IsCommon ∧ e.IsCommon) :
    l.holds r = true ↔ l.condition.Relates d.dayNumber e.dayNumber := by
  have hholds : l.holds r = l.condition.admits (Text.compare d.text e.text) := by
    rw [holds_comparison hc hx, compareParam?_cast hcast, hd, he]
    rfl
  have hadmits : l.condition.admits (Text.compare d.text e.text) =
      l.condition.admits (compare d.dayNumber e.dayNumber) := by
    have hequal : Text.compare d.text e.text = .eq ↔ compare d.dayNumber e.dayNumber = .eq := by
      rw [Date.compare_text_eq_iff, Int.compare_eq_eq, Date.dayNumber_inj]
    rcases hyears with hequality | hequality | hcommon
    · exact Condition.admits_congr (.inl hequality) hequal
    · exact Condition.admits_congr (.inr hequality) hequal
    · rw [Date.compare_text_of_isCommon hcommon.1 hcommon.2]
  rw [hholds, hadmits, Condition.admits_compare_iff]

theorem holds_comparison_of_none (hcast : l.dateCast = true)
    (hc : l.condition ∈ Condition.comparisons) {x : Operand} (hx : l.operand = .one x) {r : Record}
    (h : (r.get l.key).day? = none ∨ x.toParam.day? = none) : l.holds r = false := by
  rw [holds_comparison hc hx, compareParam?_cast hcast]
  rcases h with h | h
  · rw [h]
    rfl
  · rw [h]
    cases (r.get l.key).day? <;> rfl

theorem holds_isIn_iff (hcast : l.dateCast = true) (hc : l.condition = .isIn) {xs : List Operand}
    (hx : l.operand = .many xs) (r : Record) :
    l.holds r = true ↔
      ∃ d, (r.get l.key).day? = some d ∧ ∃ x ∈ xs, x.toParam.day? = some d := by
  rw [holds_isIn hc hx, List.any_eq_true]
  constructor
  · rintro ⟨x, hmem, hequal⟩
    rw [compareParam?_cast hcast, beq_iff_eq, Option.bind_eq_some_iff] at hequal
    obtain ⟨d, hd, hequal⟩ := hequal
    obtain ⟨e, he, hequal⟩ := Option.map_eq_some_iff.mp hequal
    obtain rfl := Date.compare_text_eq_iff.mp hequal
    exact ⟨d, hd, x, hmem, he⟩
  · rintro ⟨d, hd, x, hmem, he⟩
    refine ⟨x, hmem, ?_⟩
    rw [compareParam?_cast hcast, hd, he, beq_iff_eq]
    exact congrArg some (Date.compare_text_eq_iff.mpr rfl)

theorem isNull_field_iff (hcast : l.dateCast = true) (r : Record) :
    (l.field r).isNull = true ↔ (r.get l.key).day? = none := by
  rw [field_of_dateCast hcast]
  cases (r.get l.key).day? <;> simp [Json.isNull]

/-- A right side that does not suit its condition matches nothing. -/
theorem holds_of_not_isSettled (h : ¬ l.IsSettled) (hc : l.condition ∈ .isIn :: Condition.comparisons)
    (r : Record) : l.holds r = false := by
  obtain ⟨key, c, operand, chain, dateCast⟩ := l
  cases operand with
  | one x =>
    obtain rfl : c = .isIn := not_not.mp h
    change Option.any _ _ = false
    cases Json.compareParam? _ _ <;> rfl
  | many xs =>
    simp only [Condition.comparisons, List.mem_cons, List.not_mem_nil, or_false] at hc
    rcases hc with rfl | rfl | rfl | rfl | rfl | rfl | rfl
    · exact absurd rfl h
    all_goals rfl

/-- **Dates are compared in time.** A field and an operand that both denote a day, in years that are
written with four digits, satisfy the conditions that hold between the numbers of the two days, and
no condition if one of them denotes no day. Equality needs no four digits, a list holds of the days
of its items, and a field without a day is null. -/
theorem days_compared (hcast : l.dateCast = true) (r : Record) :
    (∀ x, l.condition ∈ Condition.comparisons → l.operand = .one x →
      (∀ d e, (r.get l.key).day? = some d → x.toParam.day? = some e →
        (l.condition = .equals ∨ l.condition = .notEquals ∨ d.IsCommon ∧ e.IsCommon) →
        (l.holds r = true ↔ l.condition.Relates d.dayNumber e.dayNumber)) ∧
      ((r.get l.key).day? = none ∨ x.toParam.day? = none → l.holds r = false)) ∧
    (∀ xs, l.condition = .isIn → l.operand = .many xs →
      (l.holds r = true ↔
        ∃ d, (r.get l.key).day? = some d ∧ ∃ x ∈ xs, x.toParam.day? = some d)) ∧
    (l.condition ∈ .isIn :: Condition.comparisons → ¬ l.IsSettled → l.holds r = false) ∧
    (l.condition = .isNull → (l.holds r = true ↔ (r.get l.key).day? = none)) ∧
    (l.condition = .isNotNull → (l.holds r = true ↔ (r.get l.key).day? ≠ none)) := by
  refine ⟨fun x hc hx => ⟨fun d e hd he hyears => holds_comparison_iff hcast hc hx hd he hyears,
    fun h => holds_comparison_of_none hcast hc hx h⟩, fun xs hc hx => holds_isIn_iff hcast hc hx r,
    fun hc h => holds_of_not_isSettled h hc r, fun hc => ?_, fun hc => ?_⟩
  · rw [← isNull_field_iff hcast, holds, hc]
  · rw [ne_eq, ← isNull_field_iff hcast, holds, hc, Bool.not_eq_true, Bool.not_eq_true']

/-- A leap day comes before the first of March, whatever the time of either. -/
theorem days_compared_leap :
    let l : Leaf := ⟨"at", .less, .one (.raw (.string "2024-03-01")), .and, true⟩
    let row : Record := [("at", .string "2024-02-29T23:59:59Z")]
    l.dateCast = true ∧ l.holds row = true := by
  intro l row
  have hd : (row.get "at").day? = some ⟨2024, 2, 29, by decide⟩ := by decide +kernel
  have he : (Operand.raw (.string "2024-03-01")).toParam.day? = some ⟨2024, 3, 1, by decide⟩ := by
    decide +kernel
  have hcompare := ((days_compared (l := l) rfl row).1 _ (by decide) rfl).1 _ _ hd he
    (.inr (.inr (by decide)))
  have hrelates : l.condition.Relates (Date.dayNumber ⟨2024, 2, 29, by decide⟩)
      (Date.dayNumber ⟨2024, 3, 1, by decide⟩) := by
    change (_ : Int) < _
    decide
  exact ⟨rfl, hcompare.mpr hrelates⟩

/-- With five digits for the year a text is no longer in its place. -/
example :
    let l : Leaf := ⟨"at", .less, .one (.raw (.string "2024-03-01")), .and, true⟩
    l.holds [("at", .string "+10000-01-01")] = true := by decide +kernel

end Leaf

end SingleTable
