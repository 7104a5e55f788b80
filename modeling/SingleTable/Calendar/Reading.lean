import SingleTable.Calendar.Timestamp
import SingleTable.Text.Blank
import SingleTable.Text.Scan

/-! # Reading dates and times

A strict form, in which every field has its full width and the distance to UTC is stated, and loose
forms, in which a field may be shorter, blanks may stand before it, and the time is UTC.

* `Timestamp.ofInternet?`: the strict form `YYYY-MM-DDTHH:MM:SS[.f](Z|±HH:MM)`.
* `Timestamp.ofLoose?`: a date with or without a time of day, whose seconds may be missing.
* `Timestamp.ofText?`: either of them, blanks around it and a `Z` behind the loose form allowed.
* `Date.ofPlain?`, `Timestamp.ofPlain?`: the forms in which dates and timestamps are stored.
-/

namespace SingleTable.Calendar
open Text

/-! ## Fields -/

def shortField (cs : List Char) : Option (Nat × List Char) := span 1 2 (trimStart cs)

/-- A year, blanks before it allowed: up to four digits, or a sign and any number of digits. -/
def yearField (cs : List Char) : Option (Int × List Char) :=
  match trimStart cs with
  | '-' :: r => (span 1 r.length r).map fun (n, r) => (-(n : Int), r)
  | '+' :: r => (span 1 r.length r).map fun (n, r) => ((n : Int), r)
  | r => (span 1 4 r).map fun (n, r) => ((n : Int), r)

/-- The nanoseconds that a point and the digits behind it write; the tenth digit and those after it
are skipped. Without a point there are none. -/
def fractionField : List Char → Option (Nat × List Char)
  | '.' :: cs => do
    let (n, rest) ← span 1 9 cs
    return (n * Nat.pow 10 (9 - (cs.length - rest.length)), rest.dropWhile isDigit)
  | cs => some (0, cs)

/-- The time of day `h:m:s`; second 60 is a leap second, written on top of second 59. -/
def clock? (d : Date) (h m s nanos : Nat) : Option Timestamp :=
  let leap := if s = 60 then 1000000000 else 0
  let second := h * 3600 + m * 60 + (if s = 60 then 59 else s)
  if hb : (h < 24 ∧ m < 60 ∧ s ≤ 60) ∧ second < 86400 ∧ nanos + leap < 2000000000 then
    some ⟨d, second, nanos + leap, hb.2.1, hb.2.2⟩
  else none

/-! ## The strict form -/

/-- The seconds by which local time is ahead of UTC: `Z`, or a sign, hours and minutes. -/
def offsetField : List Char → Option (Int × List Char)
  | [] => none
  | c :: cs =>
    if c == 'Z' || c == 'z' then some (0, cs)
    else if c == '+' || c == '-' || c == '−' then do
      let (h, cs) ← span 2 2 cs
      let cs ← after ':' cs
      let (m, cs) ← span 2 2 cs
      if h < 24 && m < 60 then
        let s : Int := h * 3600 + m * 60
        return (if c == '+' then s else -s, cs)
      else none
    else none

def isDateTimeSeparator (c : Char) : Bool := c == 'T' || c == 't' || c == ' '

def Timestamp.ofInternet? (cs : List Char) : Option Timestamp := do
  let (y, cs) ← span 4 4 cs
  let cs ← after '-' cs
  let (mo, cs) ← span 2 2 cs
  let cs ← after '-' cs
  let (d, cs) ← span 2 2 cs
  guard ((cs.take 1).any isDateTimeSeparator)
  let (h, cs) ← span 2 2 (cs.drop 1)
  let cs ← after ':' cs
  let (mi, cs) ← span 2 2 cs
  let cs ← after ':' cs
  let (s, cs) ← span 2 2 cs
  let (nanos, cs) ← fractionField cs
  let (ahead, cs) ← offsetField cs
  guard cs.isEmpty
  let date ← Date.ofYmd? y mo d
  let t ← clock? date h mi s nanos
  t.shift? (-ahead)

/-! ## Loose forms -/

def dateField (cs : List Char) : Option (Date × List Char) := do
  let (y, cs) ← yearField cs
  let cs ← after '-' cs
  let (m, cs) ← shortField cs
  let cs ← after '-' cs
  let (d, cs) ← shortField cs
  let date ← Date.ofYmd? y m d
  return (date, cs)

/-- What stands between a date and a time of day: a `T`, or blanks, which may be missing. -/
inductive Gap
  | letter
  | blanks
deriving DecidableEq

def Gap.skip : Gap → List Char → Option (List Char)
  | .letter, cs => after 'T' cs
  | .blanks, cs => some (trimStart cs)

/-- A date and a time of day that fill the text, with seconds and a fraction if `seconds`. -/
def dateTime? (gap : Gap) (seconds : Bool) (cs : List Char) : Option Timestamp := do
  let (date, cs) ← dateField cs
  let cs ← gap.skip cs
  let (h, cs) ← shortField cs
  let cs ← after ':' cs
  let (m, cs) ← shortField cs
  if seconds then
    let cs ← after ':' cs
    let (s, cs) ← shortField cs
    let (nanos, cs) ← fractionField cs
    guard cs.isEmpty
    clock? date h m s nanos
  else
    guard cs.isEmpty
    clock? date h m 0 0

def Date.ofLoose? (cs : List Char) : Option Date := do
  let (d, cs) ← dateField cs
  guard cs.isEmpty
  return d

def Timestamp.ofLoose? (cs : List Char) : Option Timestamp :=
  (dateTime? .letter true cs).or <|
  (dateTime? .blanks true cs).or <|
  (dateTime? .letter false cs).or <|
  (dateTime? .blanks false cs).or <|
  (Date.ofLoose? cs).map Timestamp.midnight

def beforeZulu? (cs : List Char) : Option (List Char) :=
  if cs.getLast? == some 'Z' then some cs.dropLast else none

def Timestamp.ofText? (s : String) : Option Timestamp :=
  let cs := trim s.toList
  (Timestamp.ofInternet? cs).or <|
  ((beforeZulu? cs).bind Timestamp.ofLoose?).or <|
  Timestamp.ofLoose? cs

/-! ## Stored forms -/

def afterBlanks (c : Char) (cs : List Char) : Option (List Char) := after c (trimStart cs)

def storedDateField (cs : List Char) : Option (Date × List Char) := do
  let (y, cs) ← yearField cs
  let cs ← afterBlanks '-' cs
  let (m, cs) ← shortField cs
  let cs ← afterBlanks '-' cs
  let (d, cs) ← shortField cs
  let date ← Date.ofYmd? y m d
  return (date, trimStart cs)

def Date.ofPlain? (s : String) : Option Date := do
  let (d, cs) ← storedDateField s.toList
  guard cs.isEmpty
  return d

def Timestamp.ofPlain? (s : String) : Option Timestamp := do
  let (date, cs) ← storedDateField s.toList
  let cs ← after 'T' cs
  let (h, cs) ← shortField cs
  let cs ← afterBlanks ':' cs
  let (m, cs) ← shortField cs
  let cs ← afterBlanks ':' cs
  let (s, cs) ← shortField cs
  let (nanos, cs) ← fractionField cs
  guard (trimStart cs).isEmpty
  clock? date h m s nanos

end SingleTable.Calendar
