/-! # Identifiers

The names of tables and columns as they stand in a statement.

* `Identifier.sanitize`: a name without the characters that no identifier has.
* `Identifier.segments`: the parts of a sanitized name between its dots.
* `Identifier.quote`: the parts in quotes, joined with dots; a star alone stays bare.
* `Identifier.IsWord`: a name that sanitizing leaves as it is, in one part.
-/

namespace SingleTable.Identifier

/-- ASCII letters and digits, the underscore, the dot and the star. -/
def isKept (c : Char) : Bool := c.isAlphanum || c == '_' || c == '.' || c == '*'

def sanitizeChars (cs : List Char) : List Char := cs.filter isKept

def sanitize (name : String) : String := String.ofList (sanitizeChars name.toList)

def segments (name : String) : List (List Char) := (sanitizeChars name.toList).splitOn '.'

/-- The parts of a text hold its characters, and none of them its separator. -/
theorem mem_of_mem_splitOn {x : Char} {cs s : List Char} (hs : s ∈ cs.splitOn x) :
    ∀ c ∈ s, c ∈ cs ∧ c ≠ x := by
  induction cs generalizing s with
  | nil => simp_all
  | cons y cs ih =>
    intro c hc
    rw [List.splitOn_cons_eq_if_modifyHead] at hs
    split at hs
    · rcases List.mem_cons.mp hs with rfl | hs
      · cases hc
      · exact ⟨List.mem_cons_of_mem y (ih hs c hc).1, (ih hs c hc).2⟩
    · rename_i hy
      obtain ⟨t, ts, ht⟩ := List.exists_cons_of_ne_nil (List.splitOn_ne_nil x cs)
      rw [ht] at ih
      rw [ht, List.modifyHead_cons] at hs
      rcases List.mem_cons.mp hs with rfl | hs
      · rcases List.mem_cons.mp hc with rfl | hc
        · exact ⟨List.mem_cons_self, by simpa using hy⟩
        · have h := ih List.mem_cons_self c hc
          exact ⟨List.mem_cons_of_mem y h.1, h.2⟩
      · have h := ih (List.mem_cons_of_mem t hs) c hc
        exact ⟨List.mem_cons_of_mem y h.1, h.2⟩

theorem mem_segments {name : String} {s : List Char} (hs : s ∈ segments name) :
    ∀ c ∈ s, isKept c = true ∧ c ≠ '.' := by
  intro c hc
  obtain ⟨hmem, hdot⟩ := mem_of_mem_splitOn hs c hc
  exact ⟨(List.mem_filter.mp hmem).2, hdot⟩

def IsWord (name : String) : Prop :=
  name.toList ≠ [] ∧ (name.toList.all fun c => c.isAlphanum || c == '_') = true

instance (name : String) : Decidable (IsWord name) := inferInstanceAs (Decidable (_ ∧ _))

theorem IsWord.forall_mem {name : String} (h : IsWord name) :
    ∀ c ∈ name.toList, (c.isAlphanum || c == '_') = true := List.all_eq_true.mp h.2

theorem segments_of_isWord {name : String} (h : IsWord name) : segments name = [name.toList] := by
  have hkept : sanitizeChars name.toList = name.toList := by
    refine List.filter_eq_self.mpr fun c hc => ?_
    simp [isKept, h.forall_mem c hc]
  have hdot : '.' ∉ name.toList := fun hc => nomatch h.forall_mem '.' hc
  rw [segments, hkept, List.splitOn_eq_singleton hdot]

def quoteSegment (q : Char) (segment : List Char) : List Char :=
  if segment = ['*'] then segment else q :: segment ++ [q]

def quoteChars (q : Char) (name : String) : List Char :=
  ['.'].intercalate ((segments name).map (quoteSegment q))

def quote (q : Char) (name : String) : String := String.ofList (quoteChars q name)

end SingleTable.Identifier
