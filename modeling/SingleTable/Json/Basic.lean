import SingleTable.Number.Double

/-! # Documents

* `Json`: null, booleans, numbers, strings, arrays and objects. An object keeps its fields in the
  order in which they were written.
* `Number`: whole numbers are kept apart from doubles, so that `4` is not `4.0`.
* `Record`: the fields of an object, or of a row of a table.
* `Json.same`: equality as documents, which forgets the order of fields and the sign of zero.
-/

namespace SingleTable

inductive Number
  | int (n : Int)
  | double (x : Double)
deriving DecidableEq

namespace Number

def toDouble : Number → Double
  | int n => Double.ofInt n
  | double x => x

/-- Whole numbers differ from doubles of the same size; the two zeros are one number. -/
def same : Number → Number → Bool
  | int m, int n => m == n
  | double x, double y => x.compare? y == some .eq
  | _, _ => false

end Number

inductive Json
  | null
  | bool (b : Bool)
  | number (n : Number)
  | string (s : String)
  | array (items : List Json)
  | object (fields : List (String × Json))

instance : Inhabited Json := ⟨.null⟩

abbrev Record := List (String × Json)

namespace Record

def get? (r : Record) (key : String) : Option Json := r.lookup key

/-- The value under `key`; a missing one reads as null. -/
def get (r : Record) (key : String) : Json := (r.get? key).getD .null

def contains (r : Record) (key : String) : Bool := (r.get? key).isSome

def keys (r : Record) : List String := r.map (·.1)

theorem sizeOf_lt_of_get? {r : Record} {key : String} {v : Json} (h : r.get? key = some v) :
    sizeOf v < sizeOf r := by
  induction r with
  | nil => simp [get?] at h
  | cons f r ih =>
    obtain ⟨k, w⟩ := f
    by_cases hk : key == k
    · simp [get?, List.lookup_cons, hk] at h
      subst h
      simp +arith
    · simp [get?, List.lookup_cons, hk] at h
      have := ih h
      simp +arith at this ⊢
      omega

end Record

namespace Json

def isNull : Json → Bool
  | null => true
  | _ => false

theorem isNull_iff {j : Json} : j.isNull = true ↔ j = .null := by
  cases j <;> simp [isNull]

theorem isNull_eq_false_iff {j : Json} : j.isNull = false ↔ j ≠ .null := by
  cases j <;> simp [isNull]

def isObject : Json → Bool
  | object _ => true
  | _ => false

def field? (key : String) : Json → Option Json
  | object fields => Record.get? fields key
  | _ => none

def kind : Json → String
  | null => "null"
  | bool _ => "boolean"
  | number _ => "number"
  | string _ => "string"
  | array _ => "array"
  | object _ => "object"

mutual
def same : Json → Json → Bool
  | null, null => true
  | bool a, bool b => a == b
  | number m, number n => m.same n
  | string s, string t => s == t
  | array xs, array ys => sameItems xs ys
  | object fs, object gs => fs.length == gs.length && sameFields fs gs
  | _, _ => false
def sameItems : List Json → List Json → Bool
  | [], [] => true
  | x :: xs, y :: ys => same x y && sameItems xs ys
  | _, _ => false
/-- Every field of the first list stands, with the same value, somewhere in the second. -/
def sameFields : List (String × Json) → Record → Bool
  | [], _ => true
  | (k, v) :: fs, gs => (match gs.get? k with
    | some w => same v w
    | none => false) && sameFields fs gs
end

end Json

end SingleTable
