/-! # Universally unique identifiers

The canonical text: five groups of hexadecimal digits, of either case, with hyphens between.
-/

namespace SingleTable.Uuid

def isHexDigit (c : Char) : Bool := c.isDigit || ('a' ≤ c && c ≤ 'f') || ('A' ≤ c && c ≤ 'F')

def groupLengths : List Nat := [8, 4, 4, 4, 12]

def isCanonical (s : String) : Bool :=
  let groups := s.toList.splitOn '-'
  groups.map List.length == groupLengths && groups.all (·.all isHexDigit)

end SingleTable.Uuid
