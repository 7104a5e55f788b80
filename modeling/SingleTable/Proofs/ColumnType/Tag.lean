import SingleTable.ColumnType
import SingleTable.Identifier
import SingleTable.Proofs.Text.Blank

/-! # Tags of types

A type is written as its tag. Of the tags that name it, which may differ in case and in blanks, it
is one in which only the values of an enum have capitals.

* `ColumnType.IsNamed`: a type that some tag names.
* `ColumnType.readChars_text`: the tag of such a type names it.
-/

namespace SingleTable

/-! ## Small letters -/

namespace Text

/-- A capital becomes the small letter 32 places on, and every other character stays. -/
theorem toLower_cases (c : Char) :
    c.toLower = c ∨ c.toLower.toNat = c.toNat + 32 ∧ 65 ≤ c.toNat ∧ c.toNat ≤ 90 := by
  unfold Char.toLower
  split
  · rename_i hcapital
    have hfrom : 65 ≤ c.toNat := hcapital.1
    have hto : c.toNat ≤ 90 := hcapital.2
    refine .inr ⟨?_, hfrom, hto⟩
    change (c.toNat + 32) % 4294967296 = c.toNat + 32
    omega
  · exact .inl rfl

theorem isBlank_toLower {c : Char} (h : isBlank c = false) : isBlank c.toLower = false := by
  rcases toLower_cases c with hself | ⟨hsmall, hcapital⟩
  · rwa [hself]
  · simp only [isBlank, hsmall, Bool.or_eq_false_iff, Bool.and_eq_false_iff,
      decide_eq_false_iff_not, beq_eq_false_iff_ne]
    omega

theorem toLower_toLower (c : Char) : c.toLower.toLower = c.toLower := by
  rcases toLower_cases c.toLower with hself | ⟨-, hfrom, hto⟩
  · exact hself
  rcases toLower_cases c with hself | ⟨hsmall, hcapital⟩
  · rw [hself, hself]
  · omega

@[simp] theorem lower_append (cs ds : List Char) : lower (cs ++ ds) = lower cs ++ lower ds :=
  List.map_append

theorem lower_lower (cs : List Char) : lower (lower cs) = lower cs := by
  rw [lower, lower, List.map_map]
  exact List.map_congr_left fun c _ => toLower_toLower c

theorem Trimmed.lower {cs : List Char} (h : Trimmed cs) : Trimmed (lower cs) where
  head c hc := by
    rw [Text.lower, List.head?_map] at hc
    obtain ⟨d, hd, rfl⟩ := Option.map_eq_some_iff.mp hc
    exact isBlank_toLower (h.head d hd)
  last c hc := by
    rw [Text.lower, List.getLast?_map] at hc
    obtain ⟨d, hd, rfl⟩ := Option.map_eq_some_iff.mp hc
    exact isBlank_toLower (h.last d hd)

end Text

/-! ## Types that have a tag -/

namespace ColumnType

/-- A value that is itself when it stands between two commas. -/
structure IsSpelled (v : String) : Prop where
  ne_nil : v.toList ≠ []
  trimmed : Text.Trimmed v.toList
  comma : ',' ∉ v.toList

def IsPlain : ColumnType → Prop
  | enum _ => False
  | array inner => inner.IsPlain
  | _ => True

/-- An enum is a type on its own: no tag names an array of enums. -/
def IsNamed : ColumnType → Prop
  | enum values => ∀ v ∈ values, IsSpelled v
  | t => t.IsPlain

theorem IsPlain.isNamed {t : ColumnType} (h : t.IsPlain) : t.IsNamed := by
  cases t <;> first | exact h | cases h

theorem beforeBrackets?_eq_some_iff {cs r : List Char} :
    beforeBrackets? cs = some r ↔ cs = r ++ ['[', ']'] := by
  unfold beforeBrackets?
  split
  · rename_i s hs
    rw [List.reverse_eq_iff] at hs
    subst hs
    simp
  · rename_i hne
    refine iff_of_false (by simp) fun h => hne r.reverse ?_
    simp [h]

theorem isPlain_of_ofWord? {w : String} {t : ColumnType} (h : ofWord? w = some t) : t.IsPlain := by
  unfold ofWord? at h
  split at h <;> cases h <;> trivial

theorem isSpelled_of_mem_enumValues {cs : List Char} {v : String} (h : v ∈ enumValues cs) :
    IsSpelled v := by
  obtain ⟨s, hs, rfl⟩ := List.mem_map.mp h
  obtain ⟨hs, hne⟩ := List.mem_filter.mp hs
  obtain ⟨part, hpart, rfl⟩ := List.mem_map.mp hs
  refine ⟨by simpa using hne, ?_, ?_⟩
  · rw [String.toList_ofList]
    exact Text.trimmed_trim part
  · rw [String.toList_ofList]
    intro hc
    exact (Identifier.mem_of_mem_splitOn hpart _ (Text.mem_of_mem_trim hc)).2 rfl

/-- What stands before brackets is already small and starts without a blank, so it is read as a
part of the tag: an enum's word cannot come up in it. -/
theorem isPrefixOf_of_beforeBrackets? {cs r w : List Char} (hcs : Text.Trimmed cs)
    (hr : Text.lower cs = r ++ ['[', ']']) (hw : w <+: Text.lower (Text.trim r)) :
    w <+: Text.lower cs := by
  have hprefix : r <+: Text.lower cs := ⟨_, hr.symm⟩
  have hhead : ∀ c ∈ r.head?, Text.isBlank c = false := fun c hc =>
    hcs.lower.head c (Text.head?_mono hprefix c hc)
  have hsmall : Text.lower r <+: Text.lower (Text.lower cs) := hprefix.map Char.toLower
  rw [Text.lower_lower] at hsmall
  exact hw.trans (((Text.trim_isPrefix hhead).map Char.toLower).trans hsmall)

theorem readChars_of_beforeBrackets? {cs inner : List Char}
    (henum : ¬ "enum[".toList <+: Text.lower (Text.trim cs))
    (h : beforeBrackets? (Text.lower (Text.trim cs)) = some inner) :
    readChars cs = (readChars inner).map array := by
  rw [readChars]
  simp only [mt List.isPrefixOf_iff_prefix.mp henum, Bool.false_eq_true, if_false]
  split
  · rename_i r hr
    rw [h] at hr
    cases hr
    rfl
  · rename_i hnone
    rw [h] at hnone
    cases hnone

theorem readChars_of_word {cs : List Char}
    (henum : ¬ "enum[".toList <+: Text.lower (Text.trim cs))
    (h : beforeBrackets? (Text.lower (Text.trim cs)) = none) :
    readChars cs =
      match ofWord? (String.ofList (Text.lower (Text.trim cs))) with
      | some t => .ok t
      | none => .error (.unknown (String.ofList (Text.trim cs))) := by
  rw [readChars]
  simp only [mt List.isPrefixOf_iff_prefix.mp henum, Bool.false_eq_true, if_false]
  split
  · rename_i r hr
    rw [h] at hr
    cases hr
  · rfl

theorem isPlain_of_readChars {cs : List Char} {t : ColumnType} (h : readChars cs = .ok t)
    (henum : ¬ "enum[".toList <+: Text.lower (Text.trim cs)) : t.IsPlain := by
  induction cs using readChars.induct generalizing t with
  | case1 _ _ _ hp | case2 _ _ _ hp => exact absurd (List.isPrefixOf_iff_prefix.mp hp) henum
  | case3 cs _ _ _ inner hinner =>
    rename_i ih
    rw [readChars_of_beforeBrackets? henum hinner] at h
    cases hs : readChars inner with
    | error e =>
      rw [hs] at h
      cases h
    | ok s =>
      rw [hs] at h
      cases h
      have hplain : s.IsPlain := ih hs fun hw => henum
        (isPrefixOf_of_beforeBrackets? (Text.trimmed_trim cs)
          (beforeBrackets?_eq_some_iff.mp hinner) hw)
      exact hplain
  | case4 _ _ _ _ hnone u =>
    rename_i hu
    rw [readChars_of_word henum hnone, hu] at h
    cases h
    exact isPlain_of_ofWord? hu
  | case5 _ _ _ _ hnone =>
    rename_i hu
    rw [readChars_of_word henum hnone, hu] at h
    cases h

theorem isNamed_of_readChars {cs : List Char} {t : ColumnType} (h : readChars cs = .ok t) :
    t.IsNamed := by
  by_cases henum : "enum[".toList <+: Text.lower (Text.trim cs)
  · rw [readChars] at h
    simp only [List.isPrefixOf_iff_prefix.mpr henum, if_true] at h
    split at h
    · cases h
      exact fun v hv => isSpelled_of_mem_enumValues hv
    · cases h
  · exact (isPlain_of_readChars h henum).isNamed

/-! ## Reading the tag of a type -/

/-- The tags without an enum: small, without blanks, and begun by another letter. -/
structure IsSmall (cs : List Char) : Prop where
  trimmed : Text.Trimmed cs
  lower : Text.lower cs = cs
  head : ∃ c ∈ cs.head?, c ≠ 'e'

theorem IsSmall.not_enum {cs : List Char} (h : IsSmall cs) : ¬ "enum[".toList <+: cs := by
  intro hp
  obtain ⟨c, hc, hne⟩ := h.head
  have he : cs.head? = some 'e' := Text.head?_mono hp 'e' rfl
  rw [he] at hc
  exact hne (Option.some.inj hc).symm

theorem IsSmall.brackets {cs : List Char} (h : IsSmall cs) : IsSmall (cs ++ ['[', ']']) := by
  obtain ⟨c, hc, hne⟩ := h.head
  have hhead : (cs ++ ['[', ']']).head? = some c := Text.head?_mono ⟨_, rfl⟩ c hc
  refine ⟨⟨fun d hd => ?_, fun d hd => ?_⟩, ?_, c, hhead, hne⟩
  · rw [hhead] at hd
    cases hd
    exact h.trimmed.head c hc
  · simp at hd
    subst hd
    decide
  · rw [Text.lower_append, h.lower]
    rfl

theorem readChars_of_isSmall {cs : List Char} (h : IsSmall cs) (hb : beforeBrackets? cs = none) :
    readChars cs =
      match ofWord? (String.ofList cs) with
      | some t => .ok t
      | none => .error (.unknown (String.ofList cs)) := by
  have hsmall : Text.lower (Text.trim cs) = cs := by rw [Text.trim_of_trimmed h.trimmed, h.lower]
  rw [readChars_of_word] <;> rw [hsmall]
  · rw [Text.trim_of_trimmed h.trimmed]
  · exact h.not_enum
  · exact hb

theorem readChars_brackets {cs : List Char} (h : IsSmall cs) :
    readChars (cs ++ ['[', ']']) = (readChars cs).map array := by
  have hs := h.brackets
  refine readChars_of_beforeBrackets? ?_ ?_ <;>
    rw [Text.trim_of_trimmed hs.trimmed, hs.lower]
  · exact hs.not_enum
  · exact beforeBrackets?_eq_some_iff.mpr rfl

/-- The tag of a type without an enum, which is small, names it. -/
theorem isSmall_text {t : ColumnType} (h : t.IsPlain) : IsSmall t.text.toList := by
  induction t with
  | enum => cases h
  | array inner ih =>
    rw [text, String.toList_append]
    exact (ih h).brackets
  | _ =>
    refine ⟨⟨fun c hc => ?_, fun c hc => ?_⟩, by decide, _, rfl, by decide⟩
    · cases hc
      decide
    · cases hc
      decide

theorem readChars_text_of_isPlain {t : ColumnType} (h : t.IsPlain) :
    readChars t.text.toList = .ok t := by
  induction t with
  | enum => cases h
  | array inner ih =>
    have hinner : inner.IsPlain := h
    rw [text, String.toList_append]
    exact (readChars_brackets (isSmall_text hinner)).trans (by rw [ih hinner]; rfl)
  | _ =>
    refine (readChars_of_isSmall (isSmall_text h) (by decide)).trans ?_
    rw [String.ofList_toList]
    rfl

theorem enumValues_intercalate {values : List String} (h : ∀ v ∈ values, IsSpelled v) :
    enumValues (",".intercalate values).toList = values := by
  by_cases hnil : values = []
  · subst hnil
    decide
  have hcommas : ∀ l ∈ values.map String.toList, ',' ∉ l := by
    simpa using fun v hv => (h v hv).comma
  have htrim : ∀ v ∈ values, Text.trim v.toList = v.toList := fun v hv =>
    Text.trim_of_trimmed (h v hv).trimmed
  have hkept : ∀ l ∈ values.map String.toList, (!l.isEmpty) = true := by
    simpa using fun v hv => (h v hv).ne_nil
  have hsplit : (",".intercalate values).toList.splitOn ',' = values.map String.toList := by
    rw [String.toList_intercalate]
    exact List.splitOn_intercalate ',' hcommas (by simpa using hnil)
  have hmap : (values.map String.toList).map Text.trim = values.map String.toList := by
    rw [List.map_map]
    exact List.map_congr_left htrim
  rw [enumValues, hsplit, hmap, List.filter_eq_self.mpr hkept, List.map_map]
  exact List.map_id'' (fun _ => String.ofList_toList) values

theorem readChars_enum (cs : List Char) :
    readChars ("enum[".toList ++ cs ++ [']']) = .ok (enum (enumValues cs)) := by
  have htrimmed : Text.Trimmed ("enum[".toList ++ cs ++ [']']) := by
    refine ⟨fun c hc => ?_, fun c hc => ?_⟩
    · cases hc
      decide
    · rw [List.getLast?_concat] at hc
      cases hc
      decide
  have hlower : Text.lower ("enum[".toList ++ cs ++ [']']) =
      "enum[".toList ++ (Text.lower cs ++ [']']) := by
    rw [Text.lower_append, Text.lower_append, List.append_assoc]
    rfl
  have hprefix : "enum[".toList.isPrefixOf ("enum[".toList ++ (Text.lower cs ++ [']'])) = true :=
    List.isPrefixOf_iff_prefix.mpr (List.prefix_append _ _)
  have hlast : (("enum[".toList ++ (Text.lower cs ++ [']'])).drop 5).getLast? = some ']' :=
    List.getLast?_concat
  have hvalues : (("enum[".toList ++ cs ++ [']']).drop 5).dropLast = cs := List.dropLast_concat
  rw [readChars]
  simp only [Text.trim_of_trimmed htrimmed, hlower, hprefix, hlast, hvalues, if_true]

/-- Of the tags that name a type, its text is one. -/
theorem readChars_text {t : ColumnType} (h : t.IsNamed) : readChars t.text.toList = .ok t := by
  cases t with
  | enum values =>
    rw [text, String.toList_append, String.toList_append]
    exact (readChars_enum _).trans (by rw [enumValues_intercalate h])
  | _ => exact readChars_text_of_isPlain h

end ColumnType

end SingleTable
