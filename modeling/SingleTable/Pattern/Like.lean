import SingleTable.Pattern.Expression

/-! # LIKE patterns

A pattern is a list of pieces: `%` and `*` stand for any run of characters, `_` for any one
character, and a backslash makes the next character stand for itself.

* `Like.pieces`: the pieces that a pattern writes.
* `Like.starToPercent`: the same pattern with `%` for every `*` that is a wildcard.
* `Like.holds`: does the whole text fit the pieces?
* `Like.expression`: the same pattern as an anchored regular expression.
-/

namespace SingleTable.Like

inductive Piece
  | run
  | one
  | literal (c : Char)
deriving DecidableEq

/-- A backslash at the end stands for itself. -/
def pieces : List Char → List Piece
  | [] => []
  | ['\\'] => [.literal '\\']
  | '\\' :: c :: rest => .literal c :: pieces rest
  | '%' :: rest => .run :: pieces rest
  | '*' :: rest => .run :: pieces rest
  | '_' :: rest => .one :: pieces rest
  | c :: rest => .literal c :: pieces rest

/-- A star outside an escape becomes the percent sign; escapes stay as they are. -/
def starToPercent : List Char → List Char
  | [] => []
  | ['\\'] => ['\\']
  | '\\' :: c :: rest => '\\' :: c :: starToPercent rest
  | c :: rest => (if c == '*' then '%' else c) :: starToPercent rest

theorem pieces_starToPercent (cs : List Char) : pieces (starToPercent cs) = pieces cs := by
  fun_induction starToPercent cs with
  | case1 => rfl
  | case2 => rfl
  | case3 c rest ih => simp [pieces, ih]
  | case4 c rest h₁ h₂ ih =>
    have hc : c ≠ '\\' := by
      rintro rfl
      cases rest with
      | nil => exact h₁ rfl rfl
      | cons d r => exact h₂ d r rfl rfl
    by_cases hs : c = '*'
    · subst hs
      simp [pieces, ih]
    · by_cases hp : c = '%'
      · subst hp
        simp [pieces, ih]
      · by_cases hu : c = '_'
        · subst hu
          simp [pieces, ih]
        · have h : (if c == '*' then '%' else c) = c := by simp [hs]
          rw [h, pieces, pieces, ih] <;> simp_all

/-! ## Matching -/

/-- For each entry, does it or one after it hold? -/
def laterOr : List Bool → List Bool
  | [] => []
  | b :: rest =>
    let later := laterOr rest
    (b || later.headD false) :: later

/-- Which suffixes of a text a piece and what follows it fit, where `rest` says it of what
follows. -/
def Piece.suffixes (p : Piece) (cs : List Char) (rest : List Bool) : List Bool :=
  match p with
  | run => laterOr rest
  | one => rest.tail ++ [false]
  | literal c => List.zipWith (fun d b => d == c && b) cs rest.tail ++ [false]

/-- Which suffixes of a text the pieces fit, from the whole text to the empty one. -/
def suffixes (ps : List Piece) (cs : List Char) : List Bool :=
  ps.foldr (fun p rest => p.suffixes cs rest) (cs.map (fun _ => false) ++ [true])

def fits (ps : List Piece) (cs : List Char) : Bool := (suffixes ps cs).headD false

def holds (pattern text : String) : Bool := fits (pieces pattern.toList) text.toList

/-! ## As a regular expression -/

def escape (c : Char) : List Char := if Expression.special.contains c then ['\\', c] else [c]

def Piece.expression : Piece → List Char
  | run => ['.', '*']
  | one => ['.']
  | literal c => escape c

def expression (pattern : String) : String :=
  String.ofList ("(?s)^".toList ++ (pieces pattern.toList).flatMap Piece.expression ++ ['$'])

end SingleTable.Like
