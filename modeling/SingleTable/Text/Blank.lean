/-! # Blanks at the ends of a text

* `isBlank`: the characters of Unicode's `White_Space` property.
* `trim`: a text without the blanks at its two ends; `trimStart` keeps those at the end.
* `lower`: the text with its ASCII capitals made small, every other character kept.
-/

namespace SingleTable.Text

/-- The characters with the property `White_Space`, which is wider than ASCII's blanks. -/
def isBlank (c : Char) : Bool :=
  let n := c.toNat
  (9 ≤ n && n ≤ 13) || n == 0x20 || n == 0x85 || n == 0xA0 || n == 0x1680 ||
    (0x2000 ≤ n && n ≤ 0x200A) || n == 0x2028 || n == 0x2029 || n == 0x202F ||
    n == 0x205F || n == 0x3000

def trimStart (cs : List Char) : List Char := cs.dropWhile isBlank

def trimEnd (cs : List Char) : List Char := (cs.reverse.dropWhile isBlank).reverse

def trim (cs : List Char) : List Char := trimEnd (trimStart cs)

theorem length_trimStart_le (cs : List Char) : (trimStart cs).length ≤ cs.length := by
  induction cs with
  | nil => simp [trimStart]
  | cons c r ih =>
    by_cases h : isBlank c = true <;> simp [trimStart, List.dropWhile, h] at ih ⊢
    omega

theorem length_trim_le (cs : List Char) : (trim cs).length ≤ cs.length := by
  have h := length_trimStart_le (trimStart cs).reverse
  have h' := length_trimStart_le cs
  simp only [trim, trimEnd, trimStart, List.length_reverse] at *
  omega

/-- Small letters for `A` to `Z`. -/
def lower (cs : List Char) : List Char := cs.map Char.toLower

@[simp] theorem length_lower (cs : List Char) : (lower cs).length = cs.length := by simp [lower]

/-- The form in which a token is looked up: no blanks around it, no ASCII capitals. -/
def token (s : String) : String := String.ofList (lower (trim s.toList))

end SingleTable.Text
