import SingleTable.Text.Casing
import SingleTable.Text.Cluster.Basic

/-! # Words and camel case

A name is cut between clusters: an accent counts with the letter that it stands on.

* `words`: a name cut at `_`, `-` and blanks, between a small letter and a capital, between a
  letter and a digit, and before the last capital of a run that a small letter follows.
* `camel`: the words joined, the first one small and every later one with its first character
  capital.
-/

namespace SingleTable.Text

def isSeparator (cluster : List Char) : Bool :=
  cluster == ['_'] || cluster == ['-'] || cluster == [' ']

def isDigits (cluster : List Char) : Bool := cluster.all Char.isDigit

/-- Does a word end after the cluster `c` when `rest` follows? -/
def endsWord (c : List Char) (rest : List (List Char)) : Bool :=
  match rest with
  | [] => false
  | d :: rest =>
    let letterThenDigit := (isSmall c || isCapital c) && isDigits d
    let digitThenLetter := isDigits c && (isSmall d || isCapital d)
    let smallThenCapital := isSmall c && isCapital d
    let lastOfCapitals := isCapital c && isCapital d && (rest.take 1).any isSmall
    letterThenDigit || digitThenLetter || smallThenCapital || lastOfCapitals

/-- The words with `cluster` put at the start of the first one. -/
def extendFirst (cluster : List Char) : List (List Char) → List (List Char)
  | [] => [cluster]
  | word :: words => (cluster ++ word) :: words

/-- The words of a name that is given as its clusters. An empty word stands before a leading
separator, so that `_id` has two words. -/
def words : List (List Char) → List (List Char)
  | [] => [[]]
  | c :: rest =>
    if isSeparator c then [] :: words rest
    else if endsWord c rest then c :: words rest
    else extendFirst c (words rest)

/-- The first character is made capital, even if its cluster goes on, and the rest small as a text
of its own. -/
def capitalized : List Char → List Char
  | [] => []
  | c :: rest => toCapital c ++ small rest

def camelChars (cs : List Char) : List Char :=
  match words (clusters cs) with
  | [] => []
  | word :: words => small word ++ words.flatMap capitalized

def camel (s : String) : String := String.ofList (camelChars s.toList)

end SingleTable.Text
