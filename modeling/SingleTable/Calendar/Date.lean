import SingleTable.Text.Digits

/-! # Calendar dates

Dates of the Gregorian calendar, continued in both directions, in the years that a date may have.

* `Date`: a year, a month and a day that exist; `ofYmd?` builds one, or none.
* `Date.dayNumber`: days since 1970-01-01; `ofDayNumber?` is the way back.
* `Date.compare`: the order in time. `Date.chars`: the written form `YYYY-MM-DD`.
-/

namespace SingleTable.Calendar

def isLeap (y : Int) : Bool := y % 4 == 0 && (y % 100 != 0 || y % 400 == 0)

def daysInMonth (y : Int) : Nat → Nat
  | 2 => if isLeap y then 29 else 28
  | 4 | 6 | 9 | 11 => 30
  | _ => 31

/-- The days of the calendar between the first and the last year that a date may have. -/
def OnCalendar (year : Int) (month day : Nat) : Prop :=
  -262143 ≤ year ∧ year ≤ 262142 ∧ 1 ≤ month ∧ month ≤ 12 ∧ 1 ≤ day ∧ day ≤ daysInMonth year month

instance (year : Int) (month day : Nat) : Decidable (OnCalendar year month day) :=
  inferInstanceAs (Decidable (_ ∧ _))

structure Date where
  year : Int
  month : Nat
  day : Nat
  valid : OnCalendar year month day
deriving DecidableEq

namespace Date

def ofYmd? (year : Int) (month day : Nat) : Option Date :=
  if h : OnCalendar year month day then some ⟨year, month, day, h⟩ else none

def epoch : Date := ⟨1970, 1, 1, by decide⟩

/-! ## Counting days -/

/-- Days from the first of January of year 0 to that of year `y`. -/
def daysBeforeYear (y : Int) : Int := 365 * y + (y + 3) / 4 - (y + 99) / 100 + (y + 399) / 400

/-- Days of year `y` before the first of month `m`. -/
def daysBeforeMonth (y : Int) : Nat → Nat
  | 0 => 0
  | 1 => 0
  | m + 1 => daysBeforeMonth y m + daysInMonth y m

def dayNumber (d : Date) : Int :=
  daysBeforeYear d.year + daysBeforeMonth d.year d.month + d.day - 1 - 719528

/-- The year of the day that lies `n` days after the first of January of year 0. -/
def yearOf (n : Int) : Int :=
  let y := n * 400 / 146097
  if n < daysBeforeYear y then y - 1
  else if daysBeforeYear (y + 1) ≤ n then y + 1
  else y

/-- The month and the day that lie `n` days after the first of month `m`; at most `fuel` months are
passed. -/
def monthOf (y : Int) : Nat → Nat → Nat → Nat × Nat
  | 0, m, n => (m, n + 1)
  | fuel + 1, m, n =>
    if n < daysInMonth y m then (m, n + 1) else monthOf y fuel (m + 1) (n - daysInMonth y m)

def ofDayNumber? (n : Int) : Option Date :=
  let n := n + 719528
  let y := yearOf n
  let (m, d) := monthOf y 11 1 (n - daysBeforeYear y).toNat
  ofYmd? y m d

/-! ## Order and text -/

def compare (a b : Date) : Ordering :=
  ((Ord.compare a.year b.year).then (Ord.compare a.month b.month)).then (Ord.compare a.day b.day)

/-- Four digits for the years 0 to 9999; other years have a sign and at least four digits. -/
def yearChars (y : Int) : List Char :=
  if 0 ≤ y && y ≤ 9999 then Text.fixed 4 y.natAbs
  else
    let ds := Text.decimal y.natAbs
    (if y < 0 then '-' else '+') :: (List.replicate (4 - ds.length) '0' ++ ds)

def chars (d : Date) : List Char :=
  yearChars d.year ++ '-' :: Text.fixed 2 d.month ++ '-' :: Text.fixed 2 d.day

def text (d : Date) : String := String.ofList d.chars

end Date

end SingleTable.Calendar
