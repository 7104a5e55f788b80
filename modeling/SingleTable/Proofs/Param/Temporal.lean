import SingleTable.Proofs.Calendar.Written
import SingleTable.Rows.Compare

/-! # Stored dates and times

What a database hands back for a bound date or timestamp is its text. Read as a stored value, the text
of a date is the midnight of that date and the text of a timestamp is the timestamp down to its
milliseconds, so that a stored value is found again by the parameter that was bound for it.

* `Calendar.Timestamp.compare_toMillis`: how a timestamp without its microseconds compares with it.
* `Param.times_read_back`: the texts as stored values.
-/

namespace SingleTable

namespace Calendar

theorem Date.compare_self (d : Date) : d.compare d = .eq := compare_eq_eq_iff.mpr rfl

theorem Timestamp.compare_self (t : Timestamp) : t.compare t = .eq := by
  rw [compare, Date.compare_self, Nat.compare_eq_eq.mpr rfl, Nat.compare_eq_eq.mpr rfl]
  rfl

/-- What is cut off makes a timestamp earlier, unless there is nothing to cut off. -/
theorem Timestamp.compare_toMillis (t : Timestamp) :
    t.toMillis.compare t = if t.nanos % 1000000 = 0 then .eq else .lt := by
  have hsecond : Ord.compare t.second t.second = .eq := Nat.compare_eq_eq.mpr rfl
  rw [Timestamp.compare, Timestamp.toMillis, Date.compare_self, hsecond, Ordering.eq_then,
    Ordering.eq_then]
  dsimp only
  split
  · exact Nat.compare_eq_eq.mpr (by omega)
  · exact Nat.compare_eq_lt.mpr (by omega)

end Calendar

namespace Param
open Calendar

theorem storedTimestamp?_string (s : String) :
    (Json.string s).storedTimestamp? = Timestamp.ofText? s := by
  unfold Json.storedTimestamp? Json.isNull
  rw [if_neg Bool.false_ne_true]
  unfold Json.toTimestamp?
  rfl

theorem storedTimestamp?_date (d : Date) : (date d).toJson.storedTimestamp? = some (.midnight d) := by
  rw [toJson, storedTimestamp?_string, Timestamp.ofText?_date]

theorem storedTimestamp?_timestamp {t : Timestamp} (h : t.IsProper) :
    (timestamp t).toJson.storedTimestamp? = some t.toMillis := by
  rw [toJson, storedTimestamp?_string, Timestamp.ofText?_isoText h]

/-- **Stored dates and times read back as they were bound**, in any year: a date as its midnight and a
timestamp as its milliseconds. Compared with its parameter the stored text is equal if nothing was
cut off, and its date is the date of the parameter. -/
theorem times_read_back :
    (∀ d : Date, (date d).toJson.storedTimestamp? = some (.midnight d) ∧
      (date d).toJson.compareParam? (date d) = some .eq ∧
      (date d).toJson.calendarDate? = some d.text ∧ (date d).calendarDate? = some d.text) ∧
    ∀ t : Timestamp, t.IsProper →
      (timestamp t).toJson.storedTimestamp? = some t.toMillis ∧
      (timestamp t).toJson.compareParam? (timestamp t) =
        some (if t.nanos % 1000000 = 0 then .eq else .lt) ∧
      (timestamp t).toJson.calendarDate? = some t.date.text ∧
      (timestamp t).calendarDate? = some t.date.text := by
  refine ⟨fun d => ?_, fun t ht => ?_⟩
  · have hstored := storedTimestamp?_date d
    have hcompare : (date d).toJson.compareParam? (date d) = some .eq := by
      refine (bind_of_eq_some hstored).trans ?_
      rw [Timestamp.compare_self]
      rfl
    refine ⟨hstored, hcompare, ?_, rfl⟩
    rw [Json.calendarDate?, hstored]
    rfl
  · have hstored := storedTimestamp?_timestamp ht
    have hcompare : (timestamp t).toJson.compareParam? (timestamp t) =
        some (if t.nanos % 1000000 = 0 then .eq else .lt) := by
      refine (bind_of_eq_some hstored).trans ?_
      rw [Timestamp.compare_toMillis]
      rfl
    refine ⟨hstored, hcompare, ?_, rfl⟩
    rw [Json.calendarDate?, hstored]
    rfl

/-- A leap second before the year 0 loses its microseconds, and whole milliseconds lose nothing. -/
theorem times_read_back_leap :
    let leap : Timestamp := ⟨⟨-44, 2, 29, by decide⟩, 86399, 1123456789, by decide, by decide⟩
    let whole : Timestamp := ⟨⟨2024, 2, 29, by decide⟩, 3600, 250000000, by decide, by decide⟩
    leap.IsProper ∧ (timestamp leap).toJson = .string "-0044-02-29T23:59:60.123Z" ∧
      (timestamp leap).toJson.storedTimestamp? =
        some ⟨⟨-44, 2, 29, by decide⟩, 86399, 1123000000, by decide, by decide⟩ ∧
      whole.IsProper ∧ (timestamp whole).toJson = .string "2024-02-29T01:00:00.250Z" ∧
      (timestamp whole).toJson.compareParam? (timestamp whole) = some .eq := by
  intro leap whole
  have hleap : leap.IsProper := by decide
  have hwhole : whole.IsProper := by decide
  have hmillis : leap.toMillis =
      ⟨⟨-44, 2, 29, by decide⟩, 86399, 1123000000, by decide, by decide⟩ := by
    rw [Timestamp.toMillis, Timestamp.mk.injEq]
    decide
  have hleapText : (timestamp leap).toJson = .string "-0044-02-29T23:59:60.123Z" := by
    rw [toJson]
    exact congrArg Json.string (by decide +kernel)
  have hwholeText : (timestamp whole).toJson = .string "2024-02-29T01:00:00.250Z" := by
    rw [toJson]
    exact congrArg Json.string (by decide +kernel)
  exact ⟨hleap, hleapText, (times_read_back.2 leap hleap).1.trans (congrArg some hmillis), hwhole,
    hwholeText, (times_read_back.2 whole hwhole).2.1.trans (congrArg some (if_pos (by decide)))⟩

end Param

end SingleTable
