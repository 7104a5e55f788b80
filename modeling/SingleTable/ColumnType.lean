import SingleTable.Text.Blank

/-! # Column types

* `ColumnType`: the declared type of a column.
* `ColumnType.read`: the type that a tag names, or why it names none.
* `ColumnType.text`: the tag of a type.
-/

namespace SingleTable

inductive ColumnType
  | boolean
  | string
  | number
  | integer
  | float
  | serial
  | timestamp
  | date
  | dateTime
  | uuid
  | cidr
  | json
  | jsonb
  | point
  | enum (values : List String)
  | array (inner : ColumnType)
deriving DecidableEq

namespace ColumnType

def isJson : ColumnType → Bool
  | json | jsonb => true
  | _ => false

def isTemporal : ColumnType → Bool
  | timestamp | date | dateTime => true
  | _ => false

def text : ColumnType → String
  | boolean => "boolean"
  | string => "string"
  | number => "number"
  | integer => "integer"
  | float => "float"
  | serial => "serial"
  | timestamp => "timestamp"
  | date => "date"
  | dateTime => "datetime"
  | uuid => "uuid"
  | cidr => "cidr"
  | json => "json"
  | jsonb => "jsonb"
  | point => "point"
  | enum values => "enum[" ++ ",".intercalate values ++ "]"
  | array inner => inner.text ++ "[]"

/-! ## Reading a tag -/

inductive TagError
  | unterminatedEnum (tag : String)
  | unknown (tag : String)
deriving DecidableEq

def TagError.message : TagError → String
  | unterminatedEnum tag => "unterminated enum type tag '" ++ tag ++ "'"
  | unknown tag => "unknown column type tag '" ++ tag ++ "'"

def ofWord? : String → Option ColumnType
  | "boolean" | "bool" => some boolean
  | "string" | "text" => some string
  | "number" => some number
  | "integer" | "int" => some integer
  | "float" => some float
  | "serial" => some serial
  | "timestamp" => some timestamp
  | "date" => some date
  | "datetime" => some dateTime
  | "uuid" => some uuid
  | "cidr" => some cidr
  | "json" => some json
  | "jsonb" => some jsonb
  | "point" => some point
  | _ => none

/-- The values between the brackets of an enum, as they are spelled, without empty ones. -/
def enumValues (cs : List Char) : List String :=
  (((cs.splitOn ',').map Text.trim).filter (!·.isEmpty)).map String.ofList

def beforeBrackets? (cs : List Char) : Option (List Char) :=
  match cs.reverse with
  | ']' :: '[' :: r => some r.reverse
  | _ => none

theorem length_of_beforeBrackets? {cs r : List Char} (h : beforeBrackets? cs = some r) :
    r.length + 2 = cs.length := by
  unfold beforeBrackets? at h
  split at h
  · rename_i s hs
    have := congrArg List.length hs
    simp at h this
    subst h
    simpa using this.symm
  · simp at h

/-- An enum's tag begins with `enum[` and ends with a bracket, an array's tag is the tag of its
items followed by brackets, and any other tag is one word. Capitals count in enum values only. -/
def readChars (cs : List Char) : Except TagError ColumnType :=
  let tag := Text.trim cs
  let small := Text.lower tag
  if "enum[".toList.isPrefixOf small then
    if (small.drop 5).getLast? = some ']' then .ok (enum (enumValues (tag.drop 5).dropLast))
    else .error (.unterminatedEnum (String.ofList tag))
  else
    match _h : beforeBrackets? small with
    | some inner => (readChars inner).map array
    | none =>
      match ofWord? (String.ofList small) with
      | some t => .ok t
      | none => .error (.unknown (String.ofList tag))
termination_by cs.length
decreasing_by
  have h₁ := length_of_beforeBrackets? _h
  have h₂ := Text.length_trim_le cs
  simp only [small, tag, Text.length_lower] at h₁
  omega

def read (tag : String) : Except TagError ColumnType := readChars tag.toList

end ColumnType

end SingleTable
