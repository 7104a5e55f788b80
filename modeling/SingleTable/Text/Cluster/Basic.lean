import SingleTable.Text.Cluster.Role

/-! # Clusters

A text cut into the extended grapheme clusters of Unicode: what a reader takes for one character.

* `continues`: the rule by which a character stays in the cluster before it.
* `clusters`: the clusters of a text, in its order.
-/

namespace SingleTable.Text

/-- Controls and line ends stand by themselves. -/
def Role.isBreak : Role → Bool
  | carriageReturn | lineFeed | control => true
  | _ => false

/-- What belongs to the character before it, whatever that is. -/
def Role.isAttached : Role → Bool
  | extender | joiner | spacing => true
  | _ => false

/-- The neighbours within a syllable of Hangul: leads, then vowels, then tails. -/
def Role.sharesSyllable : Role → Role → Bool
  | hangulLead, hangulLead | hangulLead, hangulVowel => true
  | hangulLead, hangulOpen | hangulLead, hangulClosed => true
  | hangulOpen, hangulVowel | hangulOpen, hangulTail => true
  | hangulVowel, hangulVowel | hangulVowel, hangulTail => true
  | hangulClosed, hangulTail | hangulTail, hangulTail => true
  | _, _ => false

/-- Does the text, given the last character first, end in a consonant and a linker, with nothing
but extenders among and after them? The non-joiner `U+200C` keeps consonants apart. -/
def endsLinked (cs : List Char) : Bool :=
  let isExtra := fun c => (role c == .extender && c.toNat != 0x200C) || role c == .joiner
  (cs.takeWhile isExtra).any isLinker &&
    ((cs.dropWhile isExtra).head?.map role == some .consonant)

/-- Does the text, given the last character first, end in a pictograph and its extenders? -/
def endsPictured (cs : List Char) : Bool :=
  (cs.dropWhile (role · == .extender)).head?.map role == some .pictograph

/-- Does the text, given the last character first, end in half a flag that has no partner? -/
def endsHalfFlag (cs : List Char) : Bool :=
  (cs.takeWhile (role · == .regional)).length % 2 == 1

/-- Does `c` stay in the cluster whose characters, the last one first, are `a :: before`? -/
def continues (a : Char) (before : List Char) (c : Char) : Bool :=
  if (role a).isBreak || (role c).isBreak then role a == .carriageReturn && role c == .lineFeed
  else (role c).isAttached || role a == .lead || (role a).sharesSyllable (role c) ||
    (role c == .consonant && endsLinked (a :: before)) ||
    (role c == .pictograph && role a == .joiner && endsPictured before) ||
    (role c == .regional && endsHalfFlag (a :: before))

/-- The clusters of a text, the first one going on from `a :: before`, its last character first. -/
def clustersFrom (a : Char) (before : List Char) : List Char → List (List Char)
  | [] => [(a :: before).reverse]
  | c :: rest =>
    if continues a before c then clustersFrom c (a :: before) rest
    else (a :: before).reverse :: clustersFrom c [] rest

def clusters : List Char → List (List Char)
  | [] => []
  | c :: rest => clustersFrom c [] rest

end SingleTable.Text
