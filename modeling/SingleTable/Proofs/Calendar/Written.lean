import SingleTable.Calendar.Reading
import SingleTable.Proofs.Calendar.Days
import SingleTable.Proofs.Text.Blank

/-! # Written dates and times

A date is read back from its text, in any year, and so is a timestamp, whose text has its whole
milliseconds. A text with a time and four digits for the year is in the strict form; a text without a
time, or with another year, is not, and is read in one of the loose forms.

* `Timestamp.toMillis`: a timestamp without what is shorter than a millisecond.
* `Timestamp.IsProper`: a timestamp whose leap second, if it has one, ends a minute.
* `Timestamp.ofText?_date`, `Timestamp.ofText?_isoText`: what is read back.
-/

namespace SingleTable.Calendar
open Text

/-! ## Fields -/

theorem trimStart_of_isDigit {c : Char} (h : isDigit c = true) (cs : List Char) :
    trimStart (c :: cs) = c :: cs :=
  trimStart_of_head fun _ hd => isBlank_of_isDigit (Option.some.inj hd ▸ h)

/-- A number of some width begins with a digit. -/
theorem exists_fixed_eq_cons {w : Nat} (hw : 0 < w) (n : Nat) :
    ∃ c ds, isDigit c = true ∧ fixed w n = c :: ds := by
  cases h : fixed w n with
  | nil =>
    have hlength := length_fixed w n
    rw [h, List.length_nil] at hlength
    omega
  | cons c ds => exact ⟨c, ds, isDigit_of_mem_fixed (h ▸ List.mem_cons_self), rfl⟩

theorem shortField_fixed {n : Nat} (hn : n < 100) (rest : List Char) :
    shortField (fixed 2 n ++ rest) = some (n, rest) := by
  obtain ⟨c, ds, hc, heq⟩ := exists_fixed_eq_cons (by decide : 0 < 2) n
  have htrim : trimStart (fixed 2 n ++ rest) = fixed 2 n ++ rest := by
    rw [heq]
    exact trimStart_of_isDigit hc _
  rw [shortField, htrim, span_fixed (by decide) hn]

theorem yearField_of_isDigit {c : Char} (h : isDigit c = true) (cs : List Char) :
    yearField (c :: cs) = (span 1 4 (c :: cs)).map fun (n, r) => ((n : Int), r) := by
  unfold yearField
  rw [trimStart_of_isDigit h]
  split
  · rename_i heq
    obtain ⟨rfl, -⟩ := List.cons.inj heq
    cases h
  · rename_i heq
    obtain ⟨rfl, -⟩ := List.cons.inj heq
    cases h
  · rfl

/-- All digits in front of something else are read, if as many as there are may be read. -/
theorem span_length {ds rest : List Char} (hds : IsDigits ds)
    (hrest : ∀ c ∈ rest.head?, isDigit c = false) :
    span 1 (ds ++ rest).length (ds ++ rest) = some (value ds, rest) := by
  have hpos := List.length_pos_of_ne_nil hds.ne_nil
  refine span_append hds.isDigit hpos ?_ (.inr hrest)
  rw [List.length_append]
  omega

/-- All digits of a year are read, and behind a sign the zeros before them. -/
theorem yearField_yearChars (y : Int) (rest : List Char)
    (hrest : ∀ c ∈ rest.head?, isDigit c = false) :
    yearField (Date.yearChars y ++ rest) = some (y, rest) := by
  unfold Date.yearChars
  split
  · rename_i hcommon
    rw [Bool.and_eq_true, decide_eq_true_iff, decide_eq_true_iff] at hcommon
    obtain ⟨c, ds, hc, heq⟩ := exists_fixed_eq_cons (by decide : 0 < 4) y.natAbs
    have hcons : fixed 4 y.natAbs ++ rest = c :: (ds ++ rest) := by rw [heq, List.cons_append]
    rw [hcons, yearField_of_isDigit hc, ← hcons, span_fixed (by decide) (by omega), Option.map_some]
    simp only [Option.some.injEq, Prod.mk.injEq, and_true]
    omega
  · rename_i hcommon
    rw [Bool.and_eq_true, decide_eq_true_iff, decide_eq_true_iff] at hcommon
    have hspan := span_length ((isDigits_decimal y.natAbs).zeros_append
      (4 - (decimal y.natAbs).length)) hrest
    rw [value_zeros_append, value_decimal] at hspan
    dsimp only
    generalize List.replicate (4 - (decimal y.natAbs).length) '0' ++ decimal y.natAbs = ds at hspan
    split
    · change (span 1 (ds ++ rest).length (ds ++ rest)).map _ = _
      rw [hspan, Option.map_some]
      simp only [Option.some.injEq, Prod.mk.injEq, and_true]
      omega
    · change (span 1 (ds ++ rest).length (ds ++ rest)).map _ = _
      rw [hspan, Option.map_some]
      simp only [Option.some.injEq, Prod.mk.injEq, and_true]
      omega

/-! ## Dates -/

theorem ofYmd?_eq_self (d : Date) : Date.ofYmd? d.year d.month d.day = some d := dif_pos d.valid

theorem yearField_chars (d : Date) (rest : List Char) : yearField (d.chars ++ rest) =
    some (d.year, '-' :: (fixed 2 d.month ++ '-' :: (fixed 2 d.day ++ rest))) := by
  have hchars : d.chars ++ rest =
      Date.yearChars d.year ++ '-' :: (fixed 2 d.month ++ '-' :: (fixed 2 d.day ++ rest)) := by
    simp [Date.chars]
  rw [hchars, yearField_yearChars _ _ (by simp [isDigit])]

theorem dateField_chars (d : Date) (rest : List Char) :
    dateField (d.chars ++ rest) = some (d, rest) := by
  rw [dateField, yearField_chars]
  simp [after, shortField_fixed d.month_lt, shortField_fixed d.day_lt, ofYmd?_eq_self]

/-- A date alone is no date with a time. -/
theorem dateTime?_chars (d : Date) (gap : Gap) (seconds : Bool) : dateTime? gap seconds d.chars = none := by
  have hdate := dateField_chars d []
  rw [List.append_nil] at hdate
  have hshort : shortField (trimStart []) = none := rfl
  rw [dateTime?, hdate]
  cases gap with
  | letter => rfl
  | blanks => simp [Gap.skip, hshort]

theorem ofLoose?_chars (d : Date) : Timestamp.ofLoose? d.chars = some (.midnight d) := by
  have hdate := dateField_chars d []
  rw [List.append_nil] at hdate
  have hloose : Date.ofLoose? d.chars = some d := by
    rw [Date.ofLoose?, hdate]
    rfl
  simp only [Timestamp.ofLoose?, dateTime?_chars, hloose, Option.none_or, Option.map_some]

/-- The strict form begins with four digits. -/
theorem ofInternet?_of_span {cs : List Char} (h : span 4 4 cs = none) :
    Timestamp.ofInternet? cs = none := by
  rw [Timestamp.ofInternet?, h]
  rfl

theorem span_yearChars {y : Int} (h : ¬ (0 ≤ y ∧ y ≤ 9999)) (rest : List Char) :
    span 4 4 (Date.yearChars y ++ rest) = none := by
  have hrange : (decide (0 ≤ y) && decide (y ≤ 9999)) = false := by
    rw [Bool.and_eq_false_iff, decide_eq_false_iff_not, decide_eq_false_iff_not]
    tauto
  rw [Date.yearChars, hrange, if_neg Bool.false_ne_true]
  dsimp only
  split <;> rfl

theorem bind_of_eq_some {α β : Type} {x : Option α} {a : α} {f : α → Option β} (h : x = some a) :
    (x >>= f) = f a := by
  rw [h]
  rfl

theorem after_cons_self (c : Char) (cs : List Char) : after c (c :: cs) = some cs :=
  after_eq_some_iff.mpr rfl

theorem skip_letter (cs : List Char) : Gap.letter.skip ('T' :: cs) = some cs := after_cons_self 'T' cs

/-- The text of a date as the strict form has it. -/
theorem chars_append_of_isCommon {d : Date} (h : d.IsCommon) (rest : List Char) : d.chars ++ rest =
    fixed 4 d.year.natAbs ++ '-' :: (fixed 2 d.month ++ '-' :: (fixed 2 d.day ++ rest)) := by
  rw [Date.chars, Date.yearChars_of_isCommon h, List.append_assoc, List.append_assoc,
    List.cons_append, List.cons_append]

theorem ofInternet?_chars (d : Date) : Timestamp.ofInternet? d.chars = none := by
  by_cases h : d.IsCommon
  · have hchars := chars_append_of_isCommon h []
    rw [List.append_nil] at hchars
    rw [hchars]
    refine (bind_of_eq_some (span_fixed (Nat.le_refl 4) (Date.natAbs_year_lt h) _)).trans ?_
    refine (bind_of_eq_some (after_cons_self _ _)).trans ?_
    refine (bind_of_eq_some (span_fixed (Nat.le_refl 2) d.month_lt _)).trans ?_
    refine (bind_of_eq_some (after_cons_self _ _)).trans ?_
    refine (bind_of_eq_some (span_fixed (Nat.le_refl 2) d.day_lt _)).trans ?_
    rfl
  · rw [Date.chars, List.append_assoc]
    exact ofInternet?_of_span (span_yearChars h _)

theorem getLast?_chars (d : Date) : d.chars.getLast? = some (digitChar d.day) := by
  have hchars : d.chars =
      (Date.yearChars d.year ++ '-' :: (fixed 2 d.month ++ '-' :: fixed 1 (d.day / 10))) ++
        [digitChar d.day] := by
    simp [Date.chars, fixed]
  rw [hchars, List.getLast?_concat]

theorem beforeZulu?_chars (d : Date) : beforeZulu? d.chars = none := by
  have hne : digitChar d.day ≠ 'Z' := by
    intro heq
    have hdigit := isDigit_digitChar d.day
    rw [heq] at hdigit
    cases hdigit
  rw [beforeZulu?, getLast?_chars, if_neg]
  simpa using hne

/-- The text of a year begins with a digit or a sign. -/
theorem isBlank_head_yearChars (y : Int) (rest : List Char) :
    ∀ c ∈ (Date.yearChars y ++ rest).head?, isBlank c = false := by
  unfold Date.yearChars
  split
  · obtain ⟨c, ds, hc, heq⟩ := exists_fixed_eq_cons (by decide : 0 < 4) y.natAbs
    rw [heq]
    rintro d ⟨⟩
    exact isBlank_of_isDigit hc
  · dsimp only
    split
    · rintro c ⟨⟩
      rfl
    · rintro c ⟨⟩
      rfl

/-! ## Timestamps -/

namespace Timestamp

/-- The timestamp without what is shorter than a millisecond. -/
def toMillis (t : Timestamp) : Timestamp :=
  { t with nanos := t.nanos / 1000000 * 1000000, nanos_lt := by have := t.nanos_lt; omega }

/-- A leap second, if the timestamp lies in one, is the last second of a minute. -/
def IsProper (t : Timestamp) : Prop := 1000000000 ≤ t.nanos → t.second % 60 = 59

instance (t : Timestamp) : Decidable t.IsProper := inferInstanceAs (Decidable (_ → _))

end Timestamp

/-- A time is read as it is written when a leap second, if it has one, ends a minute. There second
60 is second 59 with a thousand million nanoseconds more, elsewhere it is the next second. -/
theorem clock?_eq_self_iff {t : Timestamp} :
    clock? t.date (t.second / 3600) (t.second / 60 % 60) (t.second % 60 + t.nanos / 1000000000)
      (t.nanos % 1000000000) = some t ↔ t.IsProper := by
  obtain ⟨date, second, nanos, hsecond, hnanos⟩ := t
  unfold Timestamp.IsProper clock?
  dsimp only
  by_cases hleap : second % 60 + nanos / 1000000000 = 60
  · simp only [hleap, if_true]
    rw [dif_pos (by omega)]
    simp only [Option.some.injEq, Timestamp.mk.injEq, true_and]
    omega
  · simp only [if_neg hleap]
    rw [dif_pos (by omega)]
    simp only [Option.some.injEq, Timestamp.mk.injEq, true_and]
    omega

theorem clock?_of_isProper {t : Timestamp} (h : t.IsProper) :
    clock? t.date (t.second / 3600) (t.second / 60 % 60) (t.second % 60 + t.nanos / 1000000000)
      (t.nanos % 1000000000 / 1000000 * 1000000) = some t.toMillis := by
  have hcarry : t.toMillis.nanos / 1000000000 = t.nanos / 1000000000 := by
    change t.nanos / 1000000 * 1000000 / 1000000000 = _
    omega
  have hrest : t.toMillis.nanos % 1000000000 = t.nanos % 1000000000 / 1000000 * 1000000 := by
    change t.nanos / 1000000 * 1000000 % 1000000000 = _
    omega
  have hproper : t.toMillis.IsProper := by
    unfold Timestamp.IsProper at h ⊢
    change 1000000000 ≤ t.nanos / 1000000 * 1000000 → t.second % 60 = 59
    omega
  rw [← hcarry, ← hrest]
  exact clock?_eq_self_iff.mpr hproper

/-- The places behind the point that are not written are zeros. -/
theorem fractionField_fixed {w n : Nat} (hw : 1 ≤ w ∧ w ≤ 9) (hn : n < 10 ^ w) (rest : List Char)
    (hrest : ∀ c ∈ rest.head?, isDigit c = false) :
    fractionField ('.' :: (fixed w n ++ rest)) = some (n * 10 ^ (9 - w), rest) := by
  have hlength := length_fixed w n
  have hspan : span 1 9 (fixed w n ++ rest) = some (n, rest) := by
    rw [span_append (fun c hc => isDigit_of_mem_fixed hc) (by omega) (by omega) (.inr hrest),
      value_fixed, Nat.mod_eq_of_lt hn]
  have hplaces : (fixed w n ++ rest).length - rest.length = w := by
    rw [List.length_append]
    omega
  have hdrop : rest.dropWhile isDigit = rest := by
    cases rest with
    | nil => rfl
    | cons c cs => exact List.dropWhile_cons_of_neg (by simp [hrest c rfl])
  refine (bind_of_eq_some hspan).trans ?_
  dsimp only
  rw [hplaces, hdrop]
  rfl

/-- Every field of a time fits its width. -/
theorem clock_lt (t : Timestamp) : t.second / 3600 < 10 ^ 2 ∧ t.second / 60 % 60 < 10 ^ 2 ∧
    t.second % 60 + t.nanos / 1000000000 < 10 ^ 2 ∧ t.nanos % 1000000000 / 1000000 < 10 ^ 3 := by
  have hsecond := t.second_lt
  have hnanos := t.nanos_lt
  omega

namespace Timestamp

theorem shift?_zero (t : Timestamp) : t.shift? (-0) = some t := by
  have hsecond := t.second_lt
  rw [shift?, dif_pos (by omega)]
  simp

variable {t : Timestamp}

theorem isoChars_eq (t : Timestamp) : t.isoChars = t.date.chars ++ 'T' ::
    (fixed 2 (t.second / 3600) ++ ':' :: (fixed 2 (t.second / 60 % 60) ++ ':' ::
      (fixed 2 (t.second % 60 + t.nanos / 1000000000) ++ '.' ::
        (fixed 3 (t.nanos % 1000000000 / 1000000) ++ ['Z'])))) := by
  simp [isoChars, clockChars]

theorem ofInternet?_isoChars (hdate : t.date.IsCommon) (ht : t.IsProper) :
    ofInternet? t.isoChars = some t.toMillis := by
  obtain ⟨hhour, hminute, hsecond, hmillis⟩ := clock_lt t
  rw [isoChars_eq, chars_append_of_isCommon hdate]
  refine (bind_of_eq_some (span_fixed (Nat.le_refl 4) (Date.natAbs_year_lt hdate) _)).trans ?_
  refine (bind_of_eq_some (after_cons_self _ _)).trans ?_
  refine (bind_of_eq_some (span_fixed (Nat.le_refl 2) t.date.month_lt _)).trans ?_
  refine (bind_of_eq_some (after_cons_self _ _)).trans ?_
  refine (bind_of_eq_some (span_fixed (Nat.le_refl 2) t.date.day_lt _)).trans ?_
  refine (bind_of_eq_some (if_pos rfl)).trans ?_
  refine (bind_of_eq_some (span_fixed (Nat.le_refl 2) hhour _)).trans ?_
  refine (bind_of_eq_some (after_cons_self _ _)).trans ?_
  refine (bind_of_eq_some (span_fixed (Nat.le_refl 2) hminute _)).trans ?_
  refine (bind_of_eq_some (after_cons_self _ _)).trans ?_
  refine (bind_of_eq_some (span_fixed (Nat.le_refl 2) hsecond _)).trans ?_
  refine (bind_of_eq_some (fractionField_fixed (by decide) hmillis ['Z'] (by simp [isDigit]))).trans ?_
  refine (bind_of_eq_some (a := ((0 : Int), ([] : List Char))) rfl).trans ?_
  refine (bind_of_eq_some (if_pos rfl)).trans ?_
  have hyear : (t.date.year.natAbs : Int) = t.date.year := Int.natAbs_of_nonneg hdate.1
  rw [hyear]
  refine (bind_of_eq_some (ofYmd?_eq_self t.date)).trans ?_
  refine (bind_of_eq_some (clock?_of_isProper ht)).trans ?_
  exact shift?_zero _

/-- Without the `Z` at its end the text is in the first loose form. -/
theorem ofLoose?_dropLast_isoChars (ht : t.IsProper) :
    ofLoose? t.isoChars.dropLast = some t.toMillis := by
  obtain ⟨hhour, hminute, hsecond, hmillis⟩ := clock_lt t
  have hdrop : t.isoChars.dropLast = t.date.chars ++ 'T' ::
      (fixed 2 (t.second / 3600) ++ ':' :: (fixed 2 (t.second / 60 % 60) ++ ':' ::
        (fixed 2 (t.second % 60 + t.nanos / 1000000000) ++ '.' ::
          (fixed 3 (t.nanos % 1000000000 / 1000000) ++ [])))) := by
    rw [isoChars, List.dropLast_concat]
    simp [clockChars]
  have hread : dateTime? .letter true t.isoChars.dropLast = some t.toMillis := by
    rw [hdrop]
    refine (bind_of_eq_some (dateField_chars t.date _)).trans ?_
    refine (bind_of_eq_some (skip_letter _)).trans ?_
    refine (bind_of_eq_some (shortField_fixed hhour _)).trans ?_
    refine (bind_of_eq_some (after_cons_self _ _)).trans ?_
    refine (bind_of_eq_some (shortField_fixed hminute _)).trans ?_
    refine (bind_of_eq_some (after_cons_self _ _)).trans ?_
    refine (bind_of_eq_some (shortField_fixed hsecond _)).trans ?_
    refine (bind_of_eq_some (fractionField_fixed (by decide) hmillis [] (by simp))).trans ?_
    refine (bind_of_eq_some (if_pos rfl)).trans ?_
    exact clock?_of_isProper ht
  rw [ofLoose?, hread, Option.some_or]

theorem ofText?_isoText (ht : t.IsProper) : ofText? t.isoText = some t.toMillis := by
  have htrim : trim t.isoChars = t.isoChars := trim_of_trimmed
    { head := by
        rw [isoChars_eq, Date.chars, List.append_assoc, List.append_assoc]
        exact isBlank_head_yearChars t.date.year _
      last := by
        rw [isoChars, List.getLast?_concat]
        rintro c ⟨⟩
        rfl }
  have hzulu : beforeZulu? t.isoChars = some t.isoChars.dropLast := by
    rw [beforeZulu?, isoChars, List.getLast?_concat]
    rfl
  unfold ofText? isoText
  dsimp only
  rw [String.toList_ofList, htrim, hzulu, Option.bind_some, ofLoose?_dropLast_isoChars ht]
  by_cases hdate : t.date.IsCommon
  · rw [ofInternet?_isoChars hdate ht, Option.some_or]
  · have hstrict : ofInternet? t.isoChars = none := by
      rw [isoChars_eq, Date.chars, List.append_assoc, List.append_assoc]
      exact ofInternet?_of_span (span_yearChars hdate _)
    rw [hstrict, Option.none_or, Option.some_or]

end Timestamp

theorem Timestamp.ofText?_date (d : Date) : Timestamp.ofText? d.text = some (.midnight d) := by
  have htrim : trim d.chars = d.chars := trim_of_trimmed
    { head := by
        rw [Date.chars, List.append_assoc]
        exact isBlank_head_yearChars d.year _
      last := by
        rw [getLast?_chars]
        rintro c ⟨⟩
        exact isBlank_of_isDigit (isDigit_digitChar d.day) }
  unfold Timestamp.ofText? Date.text
  dsimp only
  rw [String.toList_ofList, htrim, ofInternet?_chars, beforeZulu?_chars, ofLoose?_chars]
  rfl

end SingleTable.Calendar
