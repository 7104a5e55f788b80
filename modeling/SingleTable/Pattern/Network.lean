import SingleTable.Pattern.Uuid
import SingleTable.Text.Scan

/-! # Network addresses

* `Network.ipv4?`, `Network.ipv6?`: an address at the head of a text, and what follows it. Four
  decimal numbers without leading zeros; or eight groups of at most four hexadecimal digits, of
  which `::` leaves out one or more and the last two may be written as four decimal numbers.
* `Network.isCidr`: an address alone, or with a slash and a length within its width.
-/

namespace SingleTable.Network
open Text

/-- A number below 256 without a leading zero. -/
def octet (cs : List Char) : Option (List Char) :=
  let ds := cs.takeWhile isDigit
  if ds.isEmpty || 3 < ds.length || 255 < value ds || (ds.head? == some '0' && 1 < ds.length) then
    none
  else some (cs.drop ds.length)

def ipv4? (cs : List Char) : Option (List Char) := do
  let cs ← octet cs
  let cs ← octet (← after '.' cs)
  let cs ← octet (← after '.' cs)
  octet (← after '.' cs)

def group (cs : List Char) : Option (List Char) :=
  let ds := cs.takeWhile Uuid.isHexDigit
  if ds.isEmpty || 4 < ds.length then none else some (cs.drop ds.length)

def separator (first : Bool) (cs : List Char) : Option (List Char) :=
  if first then some cs else after ':' cs

/-- As many groups as there are, at most `limit`: how many they make, whether an address of four
numbers ends them, and what follows. -/
def groups (first : Bool) : Nat → List Char → Nat × Bool × List Char
  | 0, cs => (0, false, cs)
  | limit + 1, cs =>
    match if limit = 0 then none else (separator first cs).bind ipv4? with
    | some rest => (2, true, rest)
    | none =>
      match (separator first cs).bind group with
      | some rest =>
        let (n, dotted, rest) := groups false limit rest
        (n + 1, dotted, rest)
      | none => (0, false, cs)

def ipv6? (cs : List Char) : Option (List Char) :=
  let (n, dotted, rest) := groups true 8 cs
  if n = 8 then some rest
  else if dotted then none
  else do
    let rest ← after ':' (← after ':' rest)
    return (groups true (7 - n) rest).2.2

def addressWidth? (cs : List Char) : Option Nat :=
  match ipv4? cs with
  | some rest => if rest.isEmpty then some 32 else none
  | none => if (ipv6? cs) = some [] then some 128 else none

/-- The number below 256 that is the whole text, a plus sign before it allowed. -/
def length? (cs : List Char) : Option Nat :=
  let ds := match cs with
    | '+' :: ds => ds
    | ds => ds
  if ds.isEmpty || !ds.all isDigit || 255 < value ds then none else some (value ds)

def isCidr (s : String) : Bool :=
  let cs := s.toList
  let address := cs.takeWhile (· != '/')
  match addressWidth? address, cs.drop address.length with
  | none, _ => false
  | some _, [] => true
  | some width, _ :: cs => (length? cs).any (· ≤ width)

end SingleTable.Network
