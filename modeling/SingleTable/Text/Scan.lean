import SingleTable.Text.Digits

/-! # Reading from the head of a text

Each step takes something off the head of a text and hands on what follows, or fails.

* `after c`: the text behind the character `c`.
* `span lo hi`: at least `lo` and at most `hi` digits, read as a number.
-/

namespace SingleTable.Text

def after (c : Char) : List Char → Option (List Char)
  | d :: cs => if d == c then some cs else none
  | [] => none

theorem after_eq_some_iff {c : Char} {cs rest : List Char} :
    after c cs = some rest ↔ cs = c :: rest := by
  cases cs with
  | nil => simp [after]
  | cons d cs =>
    simp only [after, beq_iff_eq, List.cons.injEq]
    split <;> simp_all

/-- The longest run of digits at the head, cut at `hi`; none when it is shorter than `lo`. -/
def span (lo hi : Nat) (cs : List Char) : Option (Nat × List Char) :=
  let ds := (cs.take hi).takeWhile isDigit
  if ds.length < lo then none else some (value ds, cs.drop ds.length)

/-- Digits that nothing can lengthen are read as a whole. -/
theorem span_append {lo hi : Nat} {ds rest : List Char} (hd : ∀ c ∈ ds, isDigit c = true)
    (hlo : lo ≤ ds.length) (hhi : ds.length ≤ hi)
    (hrest : ds.length = hi ∨ ∀ c ∈ rest.head?, isDigit c = false) :
    span lo hi (ds ++ rest) = some (value ds, rest) := by
  have h : ((ds ++ rest).take hi).takeWhile isDigit = ds := by
    rw [List.take_append, List.take_of_length_le hhi, List.takeWhile_append_of_pos hd]
    rcases hrest with h | h
    · simp [h]
    · cases rest with
      | nil => simp
      | cons c r =>
        have hc : isDigit c = false := h c (by simp)
        cases hi - ds.length <;> simp [hc]
  simp only [span, h, Nat.not_lt.2 hlo, if_false, List.drop_left]

end SingleTable.Text
