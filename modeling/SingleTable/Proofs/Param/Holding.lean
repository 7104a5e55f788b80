import SingleTable.Proofs.ColumnType.Nested
import SingleTable.Sql.Statement

/-! # What parameters hold

A document is bound as a parameter, and a parameter is handed back as a document. What lies between
the two is a signed 64 bit word for a whole number and a double for any other one; a whole number
that is too large for the word is bound as the nearest double.

* `Json.IsHeld`: the documents whose numbers stand the way there and back.
* `Param.toJson_ofJson_iff`: these and no others come back, by induction on arrays.
* `ColumnType.param_eq_ofJson`: columns that have no reading of their own bind documents as they are.
* `Param.toJson_iff_isHeld`: what comes back of an operand, and of a value for a column.
-/

namespace SingleTable

/-! ## Held documents -/

/-- A whole number that a signed 64 bit word holds, or a double that is a number. -/
def Number.IsHeld : Number → Prop
  | int n => fitsSigned n = true
  | double x => x.isFinite = true

/-- The numbers are held, at every depth of an array. An object is bound whole, whatever is in it. -/
inductive Json.IsHeld : Json → Prop
  | null : IsHeld null
  | bool (b : Bool) : IsHeld (bool b)
  | number {n : Number} (h : n.IsHeld) : IsHeld (number n)
  | string (s : String) : IsHeld (string s)
  | array {items : List Json} (h : ∀ j ∈ items, IsHeld j) : IsHeld (array items)
  | object (fields : Record) : IsHeld (object fields)

namespace Param

theorem toJson_ofNumber_iff (n : Number) : (ofNumber n).toJson = .number n ↔ n.IsHeld := by
  cases n with
  | int n =>
    rw [ofNumber]
    split
    · rename_i hfits
      exact iff_of_true rfl hfits
    · rename_i hwide
      refine iff_of_false (fun h => ?_) hwide
      rw [toJson] at h
      split at h <;> cases h
  | double x =>
    rw [ofNumber, toJson]
    split
    · rename_i hfinite
      exact iff_of_true rfl hfinite
    · rename_i hinfinite
      exact iff_of_false Json.noConfusion hinfinite

mutual
theorem toJson_ofJson_iff : ∀ j : Json, (ofJson j).toJson = j ↔ j.IsHeld
  | .null => iff_of_true rfl .null
  | .bool b => iff_of_true rfl (.bool b)
  | .number n => by
      rw [ofJson, toJson_ofNumber_iff]
      exact ⟨.number, fun | .number h => h⟩
  | .string s => iff_of_true rfl (.string s)
  | .array items => by
      rw [ofJson, toJson, Json.array.injEq, toItems_ofItems_iff items]
      exact ⟨.array, fun | .array h => h⟩
  | .object fields => iff_of_true rfl (.object fields)
theorem toItems_ofItems_iff : ∀ items : List Json,
    toItems (ofItems items) = items ↔ ∀ j ∈ items, j.IsHeld
  | [] => iff_of_true rfl fun _ h => absurd h List.not_mem_nil
  | j :: items => by
      rw [ofItems, toItems, List.cons.injEq, toJson_ofJson_iff j, toItems_ofItems_iff items,
        List.forall_mem_cons]
end

theorem ofItems_eq_map (items : List Json) : ofItems items = items.map ofJson := by
  induction items with
  | nil => rfl
  | cons j items ih => rw [ofItems, ih, List.map_cons]

end Param

/-! ## Values of columns -/

namespace ColumnType

/-- A type that reads neither times nor documents binds a value as it is, and so do arrays of it. -/
theorem param_eq_ofJson {t : ColumnType} (hjson : t.bottom.isJson = false)
    (htemporal : t.bottom.isTemporal = false) (j : Json) : t.param j = .ofJson j := by
  induction t generalizing j with
  | array inner ih =>
    cases j with
    | array items =>
      have hitems : items.map inner.param = items.map Param.ofJson :=
        List.map_congr_left fun j _ => ih hjson htemporal j
      rw [param, hitems, Param.ofJson, Param.ofItems_eq_map]
    | _ => rfl
  | timestamp | date | dateTime => cases htemporal
  | json | jsonb => cases hjson
  | _ => cases j <;> rfl

end ColumnType

/-! ## Operands and values -/

namespace Param

/-- **What is bound for a document gives the document back exactly if it is held**: every signed 64
bit word and every finite double stays the same number, at every depth, and no other number does. So
it is for an operand that is taken as it is, and for a value of a column without a reading of its
own. -/
theorem toJson_iff_isHeld (j : Json) :
    ((ofJson j).toJson = j ↔ j.IsHeld) ∧
    (∀ x, Operand.decode x = .raw j → ((Operand.decode x).toParam.toJson = j ↔ j.IsHeld)) ∧
    ∀ t : ColumnType, t.bottom.isJson = false → t.bottom.isTemporal = false →
      ((t.param j).toJson = j ↔ j.IsHeld) := by
  have hbound := toJson_ofJson_iff j
  refine ⟨hbound, fun x hx => ?_, fun t hjson htemporal => ?_⟩
  · rw [hx]
    exact hbound
  · rw [ColumnType.param_eq_ofJson hjson htemporal]
    exact hbound

theorem toJson_iff_isHeld_nested :
    let limits := Json.array [.number (.int (-9223372036854775808)),
      .number (.int 9223372036854775807), .number (.double (.ofRank true 0))]
    let j := Json.array [limits, .null, .object [("n", .number (.int 18446744073709551615))]]
    let x := Json.object [("value", j)]
    let t := ColumnType.array (.array .number)
    Operand.decode x = .raw j ∧ t.bottom.isJson = false ∧ t.bottom.isTemporal = false ∧
      j.IsHeld ∧ (ofJson j).toJson = j ∧ (Operand.decode x).toParam.toJson = j ∧
      (t.param j).toJson = j := by
  intro limits j x t
  have hlimits : limits.IsHeld := by
    refine .array fun k hk => ?_
    simp only [List.mem_cons, List.not_mem_nil, or_false] at hk
    rcases hk with rfl | rfl | rfl
    · exact .number (by decide : fitsSigned _ = true)
    · exact .number (by decide : fitsSigned _ = true)
    · exact .number (by decide +kernel : Double.isFinite _ = true)
  have hheld : j.IsHeld := by
    refine .array fun k hk => ?_
    simp only [List.mem_cons, List.not_mem_nil, or_false] at hk
    rcases hk with rfl | rfl | rfl
    · exact hlimits
    · exact .null
    · exact .object _
  have hx : Operand.decode x = .raw j := rfl
  obtain ⟨hbound, hoperand, hvalue⟩ := toJson_iff_isHeld j
  exact ⟨hx, rfl, rfl, hheld, hbound.mpr hheld, (hoperand x hx).mpr hheld,
    (hvalue t rfl rfl).mpr hheld⟩

/-- The greatest whole number of a document comes back as a double that is greater by one. -/
theorem toJson_ofJson_wide :
    let n : Int := 18446744073709551615
    let x := Double.ofInt n
    (ofJson (.number (.int n))).toJson = .number (.double x) ∧ x.truncate = n + 1 ∧
      (ofJson (.number (.int n))).toJson ≠ .number (.int n) := by
  intro n x
  have hfits : fitsSigned n = false := by decide
  have hfinite : x.isFinite = true := by decide +kernel
  have hback : (ofJson (.number (.int n))).toJson = .number (.double x) := by
    rw [ofJson, ofNumber, hfits, if_neg Bool.false_ne_true, toJson, if_pos hfinite]
  refine ⟨hback, by decide +kernel, fun h => ?_⟩
  rw [hback] at h
  cases Json.number.inj h

end Param

end SingleTable
