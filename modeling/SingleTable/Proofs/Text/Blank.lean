import Mathlib.Data.List.DropRight
import SingleTable.Text.Blank

/-! # Texts without blanks at their ends

* `Trimmed`: a text without blanks at its ends; `trim_of_trimmed` leaves it as it is, and
  `trimmed_trim` makes one of every text.
-/

namespace SingleTable.Text

structure Trimmed (cs : List Char) : Prop where
  head : ∀ c ∈ cs.head?, isBlank c = false
  last : ∀ c ∈ cs.getLast?, isBlank c = false

theorem isBlank_head_trimStart (cs : List Char) :
    ∀ c ∈ (trimStart cs).head?, isBlank c = false := by
  intro c hc
  have h := List.head?_dropWhile_not isBlank cs
  have hc' : (cs.dropWhile isBlank).head? = some c := hc
  rwa [hc'] at h

theorem trimStart_of_head {cs : List Char} (h : ∀ c ∈ cs.head?, isBlank c = false) :
    trimStart cs = cs := by
  cases cs with
  | nil => rfl
  | cons c cs => exact List.dropWhile_cons_of_neg (by simp [h c rfl])

theorem trimEnd_isPrefix (cs : List Char) : trimEnd cs <+: cs := List.rdropWhile_prefix isBlank cs

theorem trim_of_trimmed {cs : List Char} (h : Trimmed cs) : trim cs = cs := by
  have hlast : trimStart cs.reverse = cs.reverse :=
    trimStart_of_head (by simpa using h.last)
  have hend : trimEnd cs = cs := by
    change (trimStart cs.reverse).reverse = cs
    rw [hlast, List.reverse_reverse]
  rw [trim, trimStart_of_head h.head, hend]

theorem trim_isPrefix {cs : List Char} (h : ∀ c ∈ cs.head?, isBlank c = false) :
    trim cs <+: cs := by
  have hend := trimEnd_isPrefix cs
  rwa [trim, trimStart_of_head h]

theorem head?_mono {cs ds : List Char} (h : cs <+: ds) : ∀ c ∈ cs.head?, c ∈ ds.head? := by
  obtain ⟨r, rfl⟩ := h
  cases cs <;> simp

theorem trimmed_trim (cs : List Char) : Trimmed (trim cs) where
  head c hc := isBlank_head_trimStart cs c (head?_mono (trimEnd_isPrefix _) c hc)
  last c hc := by
    rw [trim, trimEnd, List.getLast?_reverse] at hc
    exact isBlank_head_trimStart (trimStart cs).reverse c hc

theorem mem_of_mem_trim {c : Char} {cs : List Char} (h : c ∈ trim cs) : c ∈ cs :=
  (List.dropWhile_sublist isBlank).mem ((trimEnd_isPrefix _).mem h)

end SingleTable.Text
