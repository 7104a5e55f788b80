import SingleTable.Calendar.Date

/-! # Timestamps

A timestamp is a date, a second of that day and nanoseconds. In a leap second the nanoseconds run
on past one thousand million, so that it lies after every moment of the second before it and
before the next second.

* `Timestamp.midnight`, `ofMillis?`, `seconds`: to and from dates and counts since 1970.
* `Timestamp.shift?`: the timestamp some seconds later.
* `Timestamp.compare`: the order in time.
* `Timestamp.isoText`: `YYYY-MM-DDTHH:MM:SS.mmmZ`; `plainText` has no `Z` and all its nanoseconds.
-/

namespace SingleTable.Calendar

structure Timestamp where
  date : Date
  second : Nat
  nanos : Nat
  second_lt : second < 86400
  nanos_lt : nanos < 2000000000
deriving DecidableEq

namespace Timestamp

def midnight (d : Date) : Timestamp := ⟨d, 0, 0, by decide, by decide⟩

/-- Whole seconds since 1970-01-01T00:00:00, in days of 86400 seconds. -/
def seconds (t : Timestamp) : Int := t.date.dayNumber * 86400 + t.second

def ofSeconds? (s : Int) (nanos : Nat) (h : nanos < 2000000000) : Option Timestamp := do
  let d ← Date.ofDayNumber? (s / 86400)
  return ⟨d, (s % 86400).toNat, nanos, by omega, h⟩

def ofMillis? (ms : Int) : Option Timestamp :=
  ofSeconds? (ms / 1000) ((ms % 1000).toNat * 1000000) (by omega)

/-- The same fraction of a second, `s` seconds later. -/
def shift? (t : Timestamp) (s : Int) : Option Timestamp :=
  if h : 0 ≤ t.second + s ∧ t.second + s < 86400 then
    some { t with second := (t.second + s).toNat, second_lt := by omega }
  else ofSeconds? (t.seconds + s) t.nanos t.nanos_lt

def compare (a b : Timestamp) : Ordering :=
  ((a.date.compare b.date).then (Ord.compare a.second b.second)).then
    (Ord.compare a.nanos b.nanos)

/-! ## Text -/

/-- `HH:MM:SS`; a leap second is written as second 60. -/
def clockChars (t : Timestamp) : List Char :=
  Text.fixed 2 (t.second / 3600) ++ ':' :: Text.fixed 2 (t.second / 60 % 60) ++
    ':' :: Text.fixed 2 (t.second % 60 + t.nanos / 1000000000)

def isoChars (t : Timestamp) : List Char :=
  t.date.chars ++ 'T' :: t.clockChars ++ '.' :: Text.fixed 3 (t.nanos % 1000000000 / 1000000) ++ ['Z']

def isoText (t : Timestamp) : String := String.ofList t.isoChars

/-- No fraction when it is zero, else three, six or nine places, as few as show it all. -/
def fractionChars (nanos : Nat) : List Char :=
  let n := nanos % 1000000000
  if n == 0 then []
  else if n % 1000000 == 0 then '.' :: Text.fixed 3 (n / 1000000)
  else if n % 1000 == 0 then '.' :: Text.fixed 6 (n / 1000)
  else '.' :: Text.fixed 9 n

def plainText (t : Timestamp) : String :=
  String.ofList (t.date.chars ++ 'T' :: t.clockChars ++ fractionChars t.nanos)

end Timestamp

end SingleTable.Calendar
