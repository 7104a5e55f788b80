import Mathlib.Data.List.Perm.Subperm
import SingleTable.Json.Basic

/-! # Equality of documents

* `Json.IsProper`: no object, at any depth, has two fields of one name.
* `Record.get?_eq_some_iff_mem`: such an object holds a field exactly if it gives its value.
* `Json.same_comm`: documents in which names are not repeated are the same in both directions.
-/

namespace SingleTable

/-! ## Numbers -/

theorem Double.compare?_swap (x y : Double) : (x.compare? y).map Ordering.swap = y.compare? x := by
  unfold compare?
  rw [Bool.or_comm]
  split
  · rfl
  · rw [Option.map_some, Int.compare_swap]

theorem Number.same_comm (m n : Number) : m.same n = n.same m := by
  cases m with
  | int m =>
    cases n with
    | int n => exact BEq.comm
    | double y => rfl
  | double x =>
    cases n with
    | int n => rfl
    | double y =>
      change (x.compare? y == some .eq) = (y.compare? x == some .eq)
      rw [← Double.compare?_swap x y]
      cases x.compare? y with
      | none => rfl
      | some o => cases o <;> rfl

/-! ## Objects -/

theorem Record.get?_eq_some_iff_mem {r : Record} (h : r.keys.Nodup) {key : String} {v : Json} :
    r.get? key = some v ↔ (key, v) ∈ r := by
  induction r with
  | nil => simp [get?]
  | cons f r ih =>
    obtain ⟨k, w⟩ := f
    obtain ⟨hk, hr⟩ := List.nodup_cons.mp h
    rw [get?, List.lookup_cons]
    by_cases heq : key = k
    · subst heq
      have hnot : (key, v) ∉ r := fun hmem => hk (List.mem_map_of_mem (f := (·.1)) hmem)
      simp [hnot, eq_comm]
    · rw [beq_eq_false_iff_ne.mpr heq]
      change get? r key = some v ↔ _
      rw [ih hr]
      simp [heq]

namespace Json

mutual
def IsProper : Json → Prop
  | array items => ItemsProper items
  | object fields => (Record.keys fields).Nodup ∧ FieldsProper fields
  | _ => True
def ItemsProper : List Json → Prop
  | [] => True
  | x :: r => x.IsProper ∧ ItemsProper r
def FieldsProper : List (String × Json) → Prop
  | [] => True
  | (_, v) :: r => v.IsProper ∧ FieldsProper r
end

theorem FieldsProper.of_mem {fs : List (String × Json)} (h : FieldsProper fs)
    {f : String × Json} (hf : f ∈ fs) : f.2.IsProper := by
  induction fs with
  | nil => cases hf
  | cons g fs ih =>
    rcases List.mem_cons.mp hf with rfl | hf
    · exact h.1
    · exact ih h.2 hf

theorem sameFields_iff {fs : List (String × Json)} {gs : Record} :
    sameFields fs gs = true ↔ ∀ f ∈ fs, ∃ w, gs.get? f.1 = some w ∧ f.2.same w = true := by
  induction fs with
  | nil => simp [sameFields]
  | cons f fs ih =>
    obtain ⟨k, v⟩ := f
    rw [sameFields, Bool.and_eq_true, ih, List.forall_mem_cons]
    refine and_congr_left fun _ => ?_
    cases gs.get? k <;> simp

/-- Lists of names without repetitions, as long as each other, have all names in common as soon as
one of them has those of the other. -/
theorem keys_subset_of_subset {fs gs : Record} (hfs : fs.keys.Nodup) (hlength : fs.length = gs.length)
    (h : fs.keys ⊆ gs.keys) : gs.keys ⊆ fs.keys := by
  have hle : gs.keys.length ≤ fs.keys.length := by
    rw [Record.keys, Record.keys, List.length_map, List.length_map]
    exact Nat.le_of_eq hlength.symm
  exact ((List.subperm_of_subset hfs h).perm_of_length_le hle).symm.subset

mutual
theorem same_symm {a b : Json} (ha : a.IsProper) (hb : b.IsProper) (h : a.same b = true) :
    b.same a = true := by
  match a, b, ha, hb, h with
  | null, null, _, _, _ => rfl
  | bool a, bool b, _, _, h => exact BEq.symm h
  | number m, number n, _, _, h => exact (Number.same_comm m n).symm.trans h
  | string s, string t, _, _, h => exact BEq.symm h
  | array xs, array ys, ha, hb, h => exact sameItems_symm ha hb h
  | object fs, object gs, ha, hb, h =>
    have hfields : (fs.length == gs.length && sameFields fs gs) = true := h
    rw [Bool.and_eq_true, beq_iff_eq, sameFields_iff] at hfields
    obtain ⟨hlength, hfields⟩ := hfields
    have hfnodup : (Record.keys fs).Nodup := ha.1
    have hgnodup : (Record.keys gs).Nodup := hb.1
    have hkeys : Record.keys fs ⊆ Record.keys gs := by
      intro k hk
      obtain ⟨f, hf, rfl⟩ := List.mem_map.mp hk
      obtain ⟨w, hw, -⟩ := hfields f hf
      exact List.mem_map_of_mem (f := (·.1)) ((Record.get?_eq_some_iff_mem hgnodup).mp hw)
    change (gs.length == fs.length && sameFields gs fs) = true
    rw [Bool.and_eq_true, beq_iff_eq, sameFields_iff]
    refine ⟨hlength.symm, fun g hg => ?_⟩
    obtain ⟨f, hf, hname⟩ := List.mem_map.mp
      (keys_subset_of_subset hfnodup hlength hkeys (List.mem_map_of_mem hg))
    obtain ⟨w, hw, hsame⟩ := hfields f hf
    have hg' : Record.get? gs f.1 = some g.2 := by
      rw [Record.get?_eq_some_iff_mem hgnodup, hname]
      exact hg
    obtain rfl : w = g.2 := Option.some.inj (hw.symm.trans hg')
    refine ⟨f.2, ?_, ?_⟩
    · rw [Record.get?_eq_some_iff_mem hfnodup, ← hname]
      exact hf
    · have hsize : sizeOf f.2 < sizeOf fs :=
        Record.sizeOf_lt_of_get? ((Record.get?_eq_some_iff_mem hfnodup).mpr hf)
      exact same_symm (FieldsProper.of_mem ha.2 hf) (FieldsProper.of_mem hb.2 hg) hsame
termination_by sizeOf a
theorem sameItems_symm {xs ys : List Json} (hx : ItemsProper xs) (hy : ItemsProper ys)
    (h : sameItems xs ys = true) : sameItems ys xs = true := by
  match xs, ys, hx, hy, h with
  | [], [], _, _, _ => rfl
  | x :: xs, y :: ys, hx, hy, h =>
    rw [sameItems, Bool.and_eq_true] at h ⊢
    exact ⟨same_symm hx.1 hy.1 h.1, sameItems_symm hx.2 hy.2 h.2⟩
termination_by sizeOf xs
end

theorem same_comm {a b : Json} (ha : a.IsProper) (hb : b.IsProper) : a.same b = b.same a :=
  Bool.eq_iff_iff.mpr ⟨same_symm ha hb, same_symm hb ha⟩

end Json

end SingleTable
