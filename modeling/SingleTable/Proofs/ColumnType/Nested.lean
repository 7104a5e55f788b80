import SingleTable.Proofs.Config.Stored

/-! # Tags of nested types

The tag of an array is the tag of its items with brackets behind it. The tag of an enum ends at the
last bracket that there is, so that the brackets of an array behind it become a part of its last
value: an array of enums is written as the tag of another type.

* `ColumnType.bottom`: the items of the innermost array.
* `ColumnType.HasSpelledValues`: the values of the enum, if there is one, can stand between commas.
* `ColumnType.IsEnumArray`: arrays, however deeply nested, of the values of an enum.
* `ColumnType.read_text_exact`: those are the types, and the catalogs, that are not read back.
-/

namespace SingleTable

namespace ColumnType

def bottom : ColumnType → ColumnType
  | array inner => inner.bottom
  | t => t

def HasSpelledValues (t : ColumnType) : Prop :=
  ∀ values, t.bottom = enum values → ∀ v ∈ values, IsSpelled v

def IsEnumArray : ColumnType → Prop
  | array inner => ∃ values, inner.bottom = enum values
  | _ => False

theorem all_not_isBlank_iff {o : Option Char} :
    o.all (!Text.isBlank ·) = true ↔ ∀ c ∈ o, Text.isBlank c = false := by
  cases o <;> simp

instance (cs : List Char) : Decidable (Text.Trimmed cs) :=
  decidable_of_iff (cs.head?.all (!Text.isBlank ·) ∧ cs.getLast?.all (!Text.isBlank ·))
    ⟨fun h => ⟨all_not_isBlank_iff.mp h.1, all_not_isBlank_iff.mp h.2⟩,
      fun h => ⟨all_not_isBlank_iff.mpr h.head, all_not_isBlank_iff.mpr h.last⟩⟩

instance (v : String) : Decidable (IsSpelled v) :=
  decidable_of_iff (v.toList ≠ [] ∧ Text.Trimmed v.toList ∧ ',' ∉ v.toList)
    ⟨fun h => ⟨h.1, h.2.1, h.2.2⟩, fun h => ⟨h.ne_nil, h.trimmed, h.comma⟩⟩

theorem isPlain_iff_bottom {t : ColumnType} : t.IsPlain ↔ ∀ values, t.bottom ≠ enum values := by
  induction t with
  | enum values => exact iff_of_false id fun h => h values rfl
  | array inner ih => exact ih
  | _ => exact iff_of_true trivial fun _ => nofun

theorem isNamed_iff_not_isEnumArray {t : ColumnType} (h : t.HasSpelledValues) :
    t.IsNamed ↔ ¬ t.IsEnumArray := by
  cases t with
  | enum values => exact iff_of_true (h values rfl) id
  | array inner =>
    have hplain : (array inner).IsNamed ↔ ∀ values, inner.bottom ≠ enum values :=
      isPlain_iff_bottom
    rw [hplain]
    exact not_exists.symm
  | _ => exact iff_of_true trivial id

/-- A tag names the type that it was written for exactly if any tag names this type. -/
theorem read_text_iff_isNamed {t : ColumnType} : read t.text = .ok t ↔ t.IsNamed :=
  ⟨isNamed_of_readChars, readChars_text⟩

/-- However many brackets there are behind an enum, its tag ends with a bracket. -/
theorem exists_text_of_bottom {t : ColumnType} {values : List String} (h : t.bottom = enum values) :
    ∃ cs, t.text.toList = "enum[".toList ++ cs ++ [']'] := by
  induction t with
  | enum values =>
    refine ⟨(",".intercalate values).toList, ?_⟩
    rw [text, String.toList_append, String.toList_append]
    rfl
  | array inner ih =>
    obtain ⟨cs, hcs⟩ := ih h
    refine ⟨cs ++ [']', '['], ?_⟩
    rw [text, String.toList_append, hcs]
    simp
  | _ => cases h

theorem exists_enum_of_isEnumArray {t : ColumnType} (h : t.IsEnumArray) :
    ∃ values, read t.text = .ok (enum values) := by
  cases t with
  | array inner =>
    obtain ⟨_, hbottom⟩ := h
    obtain ⟨cs, hcs⟩ := exists_text_of_bottom (t := array inner) hbottom
    refine ⟨enumValues cs, ?_⟩
    rw [read, hcs]
    exact readChars_enum cs
  | _ => cases h

end ColumnType

theorem Catalog.ofJson?_toJson_iff {c : Catalog} : ofJson? c.toJson = some c ↔ c.IsNamed :=
  ⟨isNamed_of_ofJson?, ofJson?_toJson⟩

namespace ColumnType

/-- **The tag of a type is read back as that type, unless an array holds the values of an enum**:
the tag of such an array is read as the tag of an enum. A catalog is read back from its document
exactly if it has no column of such a type. -/
theorem read_text_exact {t : ColumnType} (ht : t.HasSpelledValues) :
    (read t.text = .ok t ↔ ¬ t.IsEnumArray) ∧
    (t.IsEnumArray → ∃ values, read t.text = .ok (enum values)) ∧
    ∀ c : Catalog, (∀ x ∈ c.columns, x.type.HasSpelledValues) →
      (Catalog.ofJson? c.toJson = some c ↔ ∀ x ∈ c.columns, ¬ x.type.IsEnumArray) := by
  refine ⟨?_, exists_enum_of_isEnumArray, fun c hc => ?_⟩
  · rw [read_text_iff_isNamed, isNamed_iff_not_isEnumArray ht]
  · rw [Catalog.ofJson?_toJson_iff]
    exact forall₂_congr fun x hx => isNamed_iff_not_isEnumArray (hc x hx)

/-- Capitals, brackets and blanks inside of a value stay, and brackets behind an enum get lost. -/
theorem read_text_exact_mixed :
    let lost := array (array (enum ["Draft", "a b]"]))
    let c := Catalog.ofList
      [⟨"state", enum ["Draft", "a b]", "enum[x"], true⟩, ⟨"days", array (array dateTime), false⟩]
    (read lost.text ≠ .ok lost ∧ ∃ values, read lost.text = .ok (enum values)) ∧
      Catalog.ofJson? c.toJson = some c := by
  intro lost c
  have hcolumns : c.columns = [⟨"state", enum ["Draft", "a b]", "enum[x"], true⟩,
      ⟨"days", array (array dateTime), false⟩] := by decide +kernel
  have hlost : lost.HasSpelledValues := by
    rintro _ ⟨⟩
    decide +kernel
  have hstate : (enum ["Draft", "a b]", "enum[x"]).HasSpelledValues := by
    rintro _ ⟨⟩
    decide +kernel
  have hdays : (array (array dateTime)).HasSpelledValues := nofun
  have hnested : lost.IsEnumArray := ⟨_, rfl⟩
  obtain ⟨hexact, hread, hcatalog⟩ := read_text_exact hlost
  refine ⟨⟨fun h => hexact.mp h hnested, hread hnested⟩, (hcatalog c ?_).mpr ?_⟩
  · rw [hcolumns]
    simpa using ⟨hstate, hdays⟩
  · rw [hcolumns]
    simp [IsEnumArray, bottom]

/-- The brackets of an array become a part of an enum's last value. -/
theorem read_text_enumArray :
    let t := array (enum ["a", "b"])
    t.HasSpelledValues ∧ t.text = "enum[a,b][]" ∧
      read t.text = .ok (enum ["a", "b]["]) ∧ read t.text ≠ .ok t := by
  intro t
  have hread : read t.text = .ok (enum ["a", "b]["]) := by decide +kernel
  refine ⟨?_, by decide +kernel, hread, fun h => ?_⟩
  · rintro _ ⟨⟩
    decide +kernel
  · rw [hread] at h
    exact ColumnType.noConfusion (Except.ok.inj h)

end ColumnType

end SingleTable
