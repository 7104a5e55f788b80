/-! # Order of texts

Texts are ordered by code point, character by character, and a text comes before every text that
continues it.
-/

namespace SingleTable.Text

def compareChars : List Char → List Char → Ordering
  | [], [] => .eq
  | [], _ :: _ => .lt
  | _ :: _, [] => .gt
  | a :: r, b :: s => (compare a.toNat b.toNat).then (compareChars r s)

def compare (s t : String) : Ordering := compareChars s.toList t.toList

end SingleTable.Text
