import SingleTable.Json.Basic
import SingleTable.Number.Shortest

/-! # Documents as text

The compact written form of a document: no blanks, fields in their order, characters beyond ASCII
as they are.

* `Json.escape`: how a character is written inside quotes.
* `Json.compact`: the text of a document.
-/

namespace SingleTable.Json
open Text

def hexDigit (n : Nat) : Char := if n < 10 then Char.ofNat (48 + n) else Char.ofNat (87 + n)

/-- Quotes, backslashes and control characters are escaped, and nothing else is. -/
def escape (c : Char) : List Char :=
  if c == '"' then ['\\', '"']
  else if c == '\\' then ['\\', '\\']
  else if c.toNat == 8 then ['\\', 'b']
  else if c.toNat == 12 then ['\\', 'f']
  else if c == '\n' then ['\\', 'n']
  else if c == '\r' then ['\\', 'r']
  else if c == '\t' then ['\\', 't']
  else if c.toNat < 32 then
    ['\\', 'u', '0', '0', hexDigit (c.toNat / 16), hexDigit (c.toNat % 16)]
  else [c]

def quoted (s : String) : List Char := '"' :: s.toList.flatMap escape ++ ['"']

def numberChars : Number → List Char
  | .int n => integer n
  | .double x => x.compact

mutual
def chars : Json → List Char
  | null => "null".toList
  | bool b => (if b then "true" else "false").toList
  | number n => numberChars n
  | string s => quoted s
  | array [] => ['[', ']']
  | array (x :: xs) => '[' :: chars x ++ itemChars xs
  | object [] => ['\x7b', '\x7d']
  | object ((k, v) :: fs) => '\x7b' :: quoted k ++ ':' :: chars v ++ fieldChars fs
def itemChars : List Json → List Char
  | [] => [']']
  | x :: xs => ',' :: chars x ++ itemChars xs
def fieldChars : List (String × Json) → List Char
  | [] => ['\x7d']
  | (k, v) :: fs => ',' :: quoted k ++ ':' :: chars v ++ fieldChars fs
end

def compact (j : Json) : String := String.ofList j.chars

end SingleTable.Json
