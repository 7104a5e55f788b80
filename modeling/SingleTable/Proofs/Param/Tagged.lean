import SingleTable.Param.Tagged
import SingleTable.Proofs.Calendar.Written

/-! # Stored parameters

A parameter is read back from its tagged form, exactly if the form has room for it: a double has to
be a number, and a leap second has to end a minute. Dates and times are stored with all their
nanoseconds.

* `Calendar.Date.ofPlain?_text`, `Calendar.Timestamp.ofPlain?_plainText_iff`: the stored texts.
* `Param.IsStored`: the parameters that their tagged form holds.
* `Param.ofTagged?_tagged_iff`: these and no others are read back, by induction on arrays.
-/

namespace SingleTable

/-! ## Dates and times -/

namespace Calendar
open Text

theorem afterBlanks_cons_self {c : Char} (h : isBlank c = false) (cs : List Char) :
    afterBlanks c (c :: cs) = some cs := by
  have htrim : trimStart (c :: cs) = c :: cs :=
    trimStart_of_head fun _ hd => Option.some.inj hd ▸ h
  rw [afterBlanks, htrim, after_cons_self]

theorem storedDateField_chars (d : Date) (rest : List Char)
    (hrest : ∀ c ∈ rest.head?, isBlank c = false) :
    storedDateField (d.chars ++ rest) = some (d, rest) := by
  refine (bind_of_eq_some (yearField_chars d rest)).trans ?_
  refine (bind_of_eq_some (afterBlanks_cons_self rfl _)).trans ?_
  refine (bind_of_eq_some (shortField_fixed d.month_lt _)).trans ?_
  refine (bind_of_eq_some (afterBlanks_cons_self rfl _)).trans ?_
  refine (bind_of_eq_some (shortField_fixed d.day_lt _)).trans ?_
  refine (bind_of_eq_some (ofYmd?_eq_self d)).trans ?_
  rw [trimStart_of_head hrest]
  rfl

theorem Date.ofPlain?_text (d : Date) : Date.ofPlain? d.text = some d := by
  have hfield := storedDateField_chars d [] (by simp)
  rw [List.append_nil] at hfield
  rw [Date.ofPlain?, Date.text, String.toList_ofList, hfield]
  rfl

/-- However many places are written, those that are not are zeros. -/
theorem fractionField_fractionChars (nanos : Nat) :
    fractionField (Timestamp.fractionChars nanos) = some (nanos % 1000000000, []) := by
  have hplaces {w n m : Nat} (hw : 1 ≤ w ∧ w ≤ 9) (hn : n < 10 ^ w) (hm : n * 10 ^ (9 - w) = m) :
      fractionField ('.' :: fixed w n) = some (m, []) := by
    have hfixed := fractionField_fixed hw hn [] (by simp)
    rwa [List.append_nil, hm] at hfixed
  have hlt : nanos % 1000000000 < 1000000000 := Nat.mod_lt _ (by decide)
  rw [Timestamp.fractionChars]
  generalize nanos % 1000000000 = n at hlt
  split
  · rename_i hzero
    rw [eq_of_beq hzero]
    rfl
  split
  · rename_i hmillis
    have hdvd : 1000000 ∣ n := Nat.dvd_of_mod_eq_zero (eq_of_beq hmillis)
    exact hplaces (by decide) (by omega) (Nat.div_mul_cancel hdvd)
  split
  · rename_i hmicros
    have hdvd : 1000 ∣ n := Nat.dvd_of_mod_eq_zero (eq_of_beq hmicros)
    exact hplaces (by decide) (by omega) (Nat.div_mul_cancel hdvd)
  · exact hplaces (by decide) hlt (Nat.mul_one n)

theorem Timestamp.ofPlain?_plainText (t : Timestamp) : ofPlain? t.plainText =
    clock? t.date (t.second / 3600) (t.second / 60 % 60) (t.second % 60 + t.nanos / 1000000000)
      (t.nanos % 1000000000) := by
  obtain ⟨hhour, hminute, hsecond, -⟩ := clock_lt t
  have hchars : t.date.chars ++ 'T' :: t.clockChars ++ fractionChars t.nanos =
      t.date.chars ++ 'T' :: (fixed 2 (t.second / 3600) ++ ':' ::
        (fixed 2 (t.second / 60 % 60) ++ ':' ::
          (fixed 2 (t.second % 60 + t.nanos / 1000000000) ++ fractionChars t.nanos))) := by
    simp [clockChars]
  rw [ofPlain?, plainText, String.toList_ofList, hchars]
  refine (bind_of_eq_some (storedDateField_chars t.date _ (by simp [isBlank]))).trans ?_
  refine (bind_of_eq_some (after_cons_self _ _)).trans ?_
  refine (bind_of_eq_some (shortField_fixed hhour _)).trans ?_
  refine (bind_of_eq_some (afterBlanks_cons_self rfl _)).trans ?_
  refine (bind_of_eq_some (shortField_fixed hminute _)).trans ?_
  refine (bind_of_eq_some (afterBlanks_cons_self rfl _)).trans ?_
  refine (bind_of_eq_some (shortField_fixed hsecond _)).trans ?_
  refine (bind_of_eq_some (fractionField_fractionChars t.nanos)).trans ?_
  rfl

theorem Timestamp.ofPlain?_plainText_iff (t : Timestamp) :
    ofPlain? t.plainText = some t ↔ t.IsProper := by
  rw [ofPlain?_plainText, clock?_eq_self_iff]

end Calendar

/-! ## Parameters -/

namespace Param

/-- The words, doubles and times in the parameter are ones that their stored form holds, at every
depth of an array. -/
inductive IsStored : Param → Prop
  | null : IsStored null
  | bool (b : Bool) : IsStored (bool b)
  | bigInt {n : Int} (h : fitsSigned n = true) : IsStored (bigInt n)
  | double {x : Double} (h : x.isFinite = true) : IsStored (double x)
  | text (s : String) : IsStored (text s)
  | date (d : Calendar.Date) : IsStored (date d)
  | timestamp {t : Calendar.Timestamp} (h : t.IsProper) : IsStored (timestamp t)
  | json (j : Json) : IsStored (json j)
  | array {items : List Param} (h : ∀ p ∈ items, IsStored p) : IsStored (array items)
  | default : IsStored default

theorem ofTagged?_bigInt_iff (n : Int) :
    ofTagged? (bigInt n).tagged = some (bigInt n) ↔ fitsSigned n = true := by
  have hread : ofTagged? (bigInt n).tagged = if fitsSigned n then some (bigInt n) else none := rfl
  rw [hread]
  split
  · rename_i hfits
    exact iff_of_true rfl hfits
  · rename_i hwide
    exact iff_of_false nofun hwide

theorem ofTagged?_double_iff (x : Double) :
    ofTagged? (double x).tagged = some (double x) ↔ x.isFinite = true := by
  rw [tagged]
  split
  · rename_i hfinite
    exact iff_of_true rfl hfinite
  · rename_i hinfinite
    have hread : ofTagged? (tag "Double" .null) = none := rfl
    rw [hread]
    exact iff_of_false nofun hinfinite

theorem ofTagged?_timestamp_iff (t : Calendar.Timestamp) :
    ofTagged? (timestamp t).tagged = some (timestamp t) ↔ t.IsProper := by
  have hread : ofTagged? (timestamp t).tagged =
      (Calendar.Timestamp.ofPlain? t.plainText).map timestamp := rfl
  rw [hread, Option.map_eq_some_iff, ← Calendar.Timestamp.ofPlain?_plainText_iff]
  simp only [timestamp.injEq, exists_eq_right]

theorem ofTagged?_date (d : Calendar.Date) : ofTagged? (date d).tagged = some (date d) := by
  have hread : ofTagged? (date d).tagged = (Calendar.Date.ofPlain? d.text).map date := rfl
  rw [hread, Calendar.Date.ofPlain?_text, Option.map_some]

theorem ofTagged?_json (j : Json) : ofTagged? (json j).tagged = some (json j) := by
  cases j <;> rfl

mutual
/-- **A stored parameter is read back**: every word, every finite double, every text, document and
date, and every time whose leap second ends a minute, at every depth of an array, and nothing
else. -/
theorem ofTagged?_tagged_iff : ∀ p : Param, ofTagged? p.tagged = some p ↔ p.IsStored
  | .null => iff_of_true rfl .null
  | .bool b => iff_of_true rfl (.bool b)
  | .bigInt n => (ofTagged?_bigInt_iff n).trans ⟨.bigInt, fun | .bigInt h => h⟩
  | .double x => (ofTagged?_double_iff x).trans ⟨.double, fun | .double h => h⟩
  | .text s => iff_of_true rfl (.text s)
  | .date d => iff_of_true (ofTagged?_date d) (.date d)
  | .timestamp t => (ofTagged?_timestamp_iff t).trans ⟨.timestamp, fun | .timestamp h => h⟩
  | .json j => iff_of_true (ofTagged?_json j) (.json j)
  | .array items => by
      have harray : ofTagged? (array items).tagged =
          (ofTaggedItems? (taggedItems items)).map array := rfl
      rw [harray, Option.map_eq_some_iff]
      simp only [array.injEq, exists_eq_right]
      exact (ofTaggedItems?_taggedItems_iff items).trans ⟨.array, fun | .array h => h⟩
  | .default => iff_of_true rfl .default
theorem ofTaggedItems?_taggedItems_iff : ∀ items : List Param,
    ofTaggedItems? (taggedItems items) = some items ↔ ∀ p ∈ items, p.IsStored
  | [] => iff_of_true rfl fun _ h => absurd h List.not_mem_nil
  | p :: items => by
      rw [List.forall_mem_cons, ← ofTagged?_tagged_iff p, ← ofTaggedItems?_taggedItems_iff items,
        taggedItems, ofTaggedItems?]
      cases ofTagged? p.tagged <;> cases ofTaggedItems? (taggedItems items) <;> simp
end

end Param

end SingleTable
