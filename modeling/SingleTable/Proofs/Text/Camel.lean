import SingleTable.Text.Camel

/-! # The camel case of snake case names

A name of small letters, digits and underscores is put into camel case in one pass: underscores are
left out, and a letter is made capital behind an underscore or a digit. Names that differ only in
underscores where nothing is made capital have the same camel case.

* `Text.IsSnake`: names of small letters, digits and underscores.
* `Text.camelFrom`: the pass, and `Text.camelChars_of_isSnake`: it gives the camel case.
* `Text.camel_camel`: a camel case without a capital is its own camel case.
-/

namespace SingleTable.Text

def isSnakeChar (c : Char) : Bool := c.isLower || c.isDigit || c == '_'

def IsSnake (name : String) : Prop := (name.toList.all isSnakeChar) = true

instance (name : String) : Decidable (IsSnake name) := inferInstanceAs (Decidable (_ = true))

/-! ## Characters -/

theorem forall_ascii {p : Char → Bool}
    (h : ((List.range 128).all fun n => p (Char.ofNat n)) = true) {c : Char} (hc : c.toNat < 128) :
    p c = true := by
  have hp := List.all_eq_true.mp h c.toNat (List.mem_range.mpr hc)
  rwa [Char.ofNat_toNat] at hp

theorem toNat_lt_of_isLower {c : Char} (h : c.isLower = true) : c.toNat < 128 := by
  have hbounds : (decide ('a'.val ≤ c.val) && decide (c.val ≤ 'z'.val)) = true := h
  rw [Bool.and_eq_true, decide_eq_true_eq, decide_eq_true_eq] at hbounds
  exact Nat.lt_of_le_of_lt (UInt32.le_iff_toNat_le.mp hbounds.2) (by decide)

theorem toNat_lt_of_isDigit {c : Char} (h : c.isDigit = true) : c.toNat < 128 := by
  simp only [Char.isDigit, Bool.and_eq_true, decide_eq_true_eq, UInt32.le_iff_toNat_le] at h
  exact Nat.lt_of_le_of_lt h.2 (by decide)

/-- What a small letter is to the search for words, and its two forms. -/
structure IsLetter (c : Char) : Prop where
  role : role c = .plain
  separator : isSeparator [c] = false
  isSmall : isSmall [c] = true
  isCapital : isCapital [c] = false
  isDigit : c.isDigit = false
  small : toSmall c = [c]
  capital : toCapital c = [c.toUpper]
  raised : isSnakeChar c.toUpper = false

structure IsNumeral (c : Char) : Prop where
  role : role c = .plain
  separator : isSeparator [c] = false
  isSmall : isSmall [c] = false
  isCapital : isCapital [c] = false
  isDigit : c.isDigit = true
  small : toSmall c = [c]
  capital : toCapital c = [c]
  raised : c.toUpper = c

theorem isLetter_of_isLower {c : Char} (h : c.isLower = true) : IsLetter c := by
  have hall := forall_ascii (p := fun c => !c.isLower || (role c == .plain && !isSeparator [c] &&
    isSmall [c] && !isCapital [c] && !c.isDigit && toSmall c == [c] && toCapital c == [c.toUpper] &&
    !isSnakeChar c.toUpper)) (by decide +kernel) (toNat_lt_of_isLower h)
  simp only [h, Bool.not_true, Bool.false_or, Bool.and_eq_true, Bool.not_eq_true', beq_iff_eq]
    at hall
  obtain ⟨⟨⟨⟨⟨⟨⟨h1, h2⟩, h3⟩, h4⟩, h5⟩, h6⟩, h7⟩, h8⟩ := hall
  exact ⟨h1, h2, h3, h4, h5, h6, h7, h8⟩

theorem isNumeral_of_isDigit {c : Char} (h : c.isDigit = true) : IsNumeral c := by
  have hall := forall_ascii (p := fun c => !c.isDigit || (role c == .plain && !isSeparator [c] &&
    !isSmall [c] && !isCapital [c] && toSmall c == [c] && toCapital c == [c] &&
    c.toUpper == c)) (by decide +kernel) (toNat_lt_of_isDigit h)
  simp only [h, Bool.not_true, Bool.false_or, Bool.and_eq_true, Bool.not_eq_true', beq_iff_eq]
    at hall
  obtain ⟨⟨⟨⟨⟨⟨h1, h2⟩, h3⟩, h4⟩, h5⟩, h6⟩, h7⟩ := hall
  exact ⟨h1, h2, h3, h4, h, h5, h6, h7⟩

theorem isSnakeChar_cases {c : Char} (h : isSnakeChar c = true) :
    IsLetter c ∨ IsNumeral c ∨ c = '_' := by
  unfold isSnakeChar at h
  rw [Bool.or_eq_true, Bool.or_eq_true, beq_iff_eq, or_assoc] at h
  exact h.imp isLetter_of_isLower (Or.imp_left isNumeral_of_isDigit)

theorem role_of_isSnakeChar {c : Char} (h : isSnakeChar c = true) : role c = .plain := by
  rcases isSnakeChar_cases h with hc | hc | rfl
  · exact hc.role
  · exact hc.role
  · decide +kernel

/-! ## Clusters and words -/

theorem continues_of_plain {a c : Char} (ha : role a = .plain) (hc : role c = .plain)
    (before : List Char) : continues a before c = false := by
  unfold continues
  rw [ha, hc]
  rfl

/-- Plain characters are clusters of their own. -/
theorem clusters_of_plain {cs : List Char} (h : ∀ c ∈ cs, role c = .plain) :
    clusters cs = cs.map fun c => [c] := by
  have hfrom : ∀ (a : Char) (rest : List Char), role a = .plain → (∀ c ∈ rest, role c = .plain) →
      clustersFrom a [] rest = (a :: rest).map fun c => [c] := by
    intro a rest ha hrest
    induction rest generalizing a with
    | nil => rfl
    | cons c rest ih =>
      have hc := hrest c List.mem_cons_self
      rw [clustersFrom, continues_of_plain ha hc, if_neg Bool.false_ne_true,
        ih c hc fun d hd => hrest d (List.mem_cons_of_mem c hd)]
      rfl
  cases cs with
  | nil => rfl
  | cons a rest =>
    exact hfrom a rest (h a List.mem_cons_self) fun c hc => h c (List.mem_cons_of_mem a hc)

/-- The characters of words stand in the clusters that they are made of. -/
theorem exists_mem_of_mem_words {ccs : List (List Char)} {word : List Char}
    (hword : word ∈ words ccs) : ∀ c ∈ word, ∃ cluster ∈ ccs, c ∈ cluster := by
  induction ccs generalizing word with
  | nil =>
    rw [words, List.mem_singleton] at hword
    subst hword
    nofun
  | cons cluster ccs ih =>
    have hrest : ∀ w ∈ words ccs, ∀ c ∈ w, ∃ d ∈ cluster :: ccs, c ∈ d := by
      intro w hw c hc
      obtain ⟨d, hd, hcd⟩ := ih hw c hc
      exact ⟨d, List.mem_cons_of_mem cluster hd, hcd⟩
    intro c hc
    rw [words] at hword
    split at hword
    · rcases List.mem_cons.mp hword with rfl | hword
      · cases hc
      · exact hrest word hword c hc
    split at hword
    · rcases List.mem_cons.mp hword with rfl | hword
      · exact ⟨word, List.mem_cons_self, hc⟩
      · exact hrest word hword c hc
    · cases hwords : words ccs with
      | nil =>
        rw [hwords, extendFirst, List.mem_singleton] at hword
        subst hword
        exact ⟨word, List.mem_cons_self, hc⟩
      | cons w ws =>
        rw [hwords, extendFirst] at hword
        rw [hwords] at hrest
        rcases List.mem_cons.mp hword with rfl | hword
        · rcases List.mem_append.mp hc with hc | hc
          · exact ⟨cluster, List.mem_cons_self, hc⟩
          · exact hrest w List.mem_cons_self c hc
        · exact hrest word (List.mem_cons_of_mem w hword) c hc

/-- A text of small letters and digits is its own small form. -/
theorem small_of_isSnake {cs : List Char} (h : ∀ c ∈ cs, isSnakeChar c = true) : small cs = cs := by
  have hafter : ∀ b, smallAfter b cs = cs := by
    induction cs with
    | nil => exact fun _ => rfl
    | cons c cs ih =>
      intro b
      have hc := h c List.mem_cons_self
      have hsmall : toSmall c = [c] := by
        rcases isSnakeChar_cases hc with hc | hc | rfl
        · exact hc.small
        · exact hc.small
        · decide +kernel
      have hsigma : (c == 'Σ') = false := by
        refine beq_false_of_ne ?_
        rintro rfl
        exact absurd hc (by decide +kernel)
      rw [smallAfter, ih fun d hd => h d (List.mem_cons_of_mem c hd)]
      simp only [hsigma, Bool.false_eq_true, if_false, hsmall, List.singleton_append]
  exact hafter false

/-! ## The pass -/

/-- The camel case of a rest. An underscore or a digit in front of it makes a letter capital. -/
def camelFrom (raise : Bool) : List Char → List Char
  | [] => []
  | c :: cs =>
    if c = '_' then camelFrom true cs
    else (if raise then c.toUpper else c) :: camelFrom c.isDigit cs

/-- Words of a camel case: the first one as it is unless it is raised as well. -/
def joined (raise : Bool) : List (List Char) → List Char
  | [] => []
  | word :: words => (if raise then capitalized word else small word) ++ words.flatMap capitalized

theorem camelChars_eq_joined (cs : List Char) :
    camelChars cs = joined false (words (clusters cs)) := by
  unfold camelChars joined
  cases words (clusters cs) <;> rfl

theorem joined_nil_cons (raise : Bool) (ws : List (List Char)) :
    joined raise ([] :: ws) = joined true ws := by
  cases ws <;> cases raise <;> rfl

theorem words_ne_nil (ccs : List (List Char)) : words ccs ≠ [] := by
  cases ccs with
  | nil => nofun
  | cons cluster ccs =>
    rw [words]
    split
    · nofun
    split
    · nofun
    · cases words ccs <;> nofun

section Pass
variable {c : Char} {cs : List Char}

theorem toCapital_of_isSnakeChar (h : isSnakeChar c = true) : toCapital c = [c.toUpper] := by
  rcases isSnakeChar_cases h with hc | hc | rfl
  · exact hc.capital
  · rw [hc.capital, hc.raised]
  · decide +kernel

/-- Whether a word ends after `c` makes a difference only for the letter that follows, and it does
so just if `c` is a digit. -/
theorem camelFrom_endsWord (hc : isSnakeChar c = true) (hne : c ≠ '_')
    (hcs : ∀ d ∈ cs, isSnakeChar d = true) :
    camelFrom (endsWord [c] (cs.map fun d => [d])) cs = camelFrom c.isDigit cs := by
  cases cs with
  | nil => rfl
  | cons d cs =>
    rcases isSnakeChar_cases (hcs d List.mem_cons_self) with hd | hd | rfl
    · have hcapital : isCapital [c] = false := by
        rcases isSnakeChar_cases hc with hc | hc | rfl
        · exact hc.isCapital
        · exact hc.isCapital
        · exact absurd rfl hne
      have hends : endsWord [c] ((d :: cs).map fun d => [d]) = c.isDigit := by
        simp [endsWord, isDigits, hd.isDigit, hd.isSmall, hd.isCapital, hcapital]
      rw [hends]
    · have hsame : ∀ raise, camelFrom raise (d :: cs) = camelFrom false (d :: cs) := by
        intro raise
        cases raise <;> simp [camelFrom, hd.raised]
      rw [hsame, hsame c.isDigit]
    · rfl

theorem joined_words (h : ∀ c ∈ cs, isSnakeChar c = true) (raise : Bool) :
    joined raise (words (cs.map fun c => [c])) = camelFrom raise cs := by
  induction cs generalizing raise with
  | nil => cases raise <;> rfl
  | cons c cs ih =>
    have hc := h c List.mem_cons_self
    have hcs : ∀ d ∈ cs, isSnakeChar d = true := fun d hd => h d (List.mem_cons_of_mem c hd)
    rw [List.map_cons, words, camelFrom]
    by_cases hsep : c = '_'
    · subst hsep
      have hseparator : isSeparator ['_'] = true := rfl
      rw [if_pos hseparator, if_pos rfl, joined_nil_cons, ih hcs]
    · have hseparator : isSeparator [c] = false := by
        rcases isSnakeChar_cases hc with hc | hc | rfl
        · exact hc.separator
        · exact hc.separator
        · exact absurd rfl hsep
      have hends := camelFrom_endsWord hc hsep hcs
      obtain ⟨w, ws, hwords⟩ := List.exists_cons_of_ne_nil (words_ne_nil (cs.map fun d => [d]))
      rw [hseparator, if_neg Bool.false_ne_true, if_neg hsep, ← hends]
      cases endsWord [c] (cs.map fun d => [d]) with
      | true =>
        rw [if_pos rfl, ← ih hcs true, hwords]
        have hsmall : small [c] = [c] := small_of_isSnake (by simpa using hc)
        cases raise with
        | true => simp [joined, capitalized, toCapital_of_isSnakeChar hc, small, smallAfter]
        | false => simp [joined, hsmall]
      | false =>
        rw [if_neg Bool.false_ne_true, ← ih hcs false, hwords]
        have hw : ∀ d ∈ w, isSnakeChar d = true := by
          intro d hd
          have hmem : w ∈ words (cs.map fun d => [d]) := hwords ▸ List.mem_cons_self
          obtain ⟨cluster, hcluster, hdc⟩ := exists_mem_of_mem_words hmem d hd
          obtain ⟨e, he, rfl⟩ := List.mem_map.mp hcluster
          exact List.mem_singleton.mp hdc ▸ hcs e he
        have hsmall : small (c :: w) = c :: w :=
          small_of_isSnake (List.forall_mem_cons.mpr ⟨hc, hw⟩)
        cases raise with
        | true =>
          simp [joined, extendFirst, capitalized, toCapital_of_isSnakeChar hc]
        | false => simp [joined, extendFirst, hsmall, small_of_isSnake hw]

/-- **The camel case of a snake case name is found in one pass.** -/
theorem camelChars_of_isSnake (h : ∀ c ∈ cs, isSnakeChar c = true) :
    camelChars cs = camelFrom false cs := by
  rw [camelChars_eq_joined, clusters_of_plain fun c hc => role_of_isSnakeChar (h c hc),
    joined_words h]

end Pass

/-! ## A camel case that is snake case -/

section Again
variable {cs : List Char}

/-- Behind a raised letter nothing is in snake case, so that only digits may be there. -/
theorem isDigit_of_camelFrom_true (h : ∀ c ∈ cs, isSnakeChar c = true)
    (hout : ∀ c ∈ camelFrom true cs, isSnakeChar c = true) :
    ∀ c ∈ camelFrom true cs, c.isDigit = true := by
  induction cs with
  | nil => nofun
  | cons c cs ih =>
    have hcs : ∀ d ∈ cs, isSnakeChar d = true := fun d hd => h d (List.mem_cons_of_mem c hd)
    by_cases hne : c = '_'
    · subst hne
      exact ih hcs hout
    · rw [camelFrom, if_neg hne, if_pos rfl] at hout ⊢
      have hraised := hout c.toUpper List.mem_cons_self
      rcases isSnakeChar_cases (h c List.mem_cons_self) with hc | hc | hc
      · rw [hc.raised] at hraised
        cases hraised
      · rw [hc.isDigit] at hout ⊢
        rw [hc.raised] at hout ⊢
        have hrest := ih hcs fun d hd => hout d (List.mem_cons_of_mem c hd)
        exact List.forall_mem_cons.mpr ⟨hc.isDigit, hrest⟩
      · exact absurd hc hne

theorem camelFrom_of_isDigit (h : ∀ c ∈ cs, c.isDigit = true) (raise : Bool) :
    camelFrom raise cs = cs := by
  induction cs generalizing raise with
  | nil => rfl
  | cons c cs ih =>
    have hc := isNumeral_of_isDigit (h c List.mem_cons_self)
    have hne : c ≠ '_' := by
      rintro rfl
      exact absurd hc.isDigit (by decide)
    rw [camelFrom, if_neg hne, ih fun d hd => h d (List.mem_cons_of_mem c hd), hc.raised, ite_self]

theorem camelFrom_camelFrom (h : ∀ c ∈ cs, isSnakeChar c = true)
    (hout : ∀ c ∈ camelFrom false cs, isSnakeChar c = true) :
    camelFrom false (camelFrom false cs) = camelFrom false cs := by
  induction cs with
  | nil => rfl
  | cons c cs ih =>
    have hcs : ∀ d ∈ cs, isSnakeChar d = true := fun d hd => h d (List.mem_cons_of_mem c hd)
    by_cases hne : c = '_'
    · subst hne
      exact camelFrom_of_isDigit (isDigit_of_camelFrom_true hcs hout) false
    · rw [camelFrom, if_neg hne, if_neg Bool.false_ne_true] at hout ⊢
      have htail : ∀ d ∈ camelFrom c.isDigit cs, isSnakeChar d = true :=
        fun d hd => hout d (List.mem_cons_of_mem c hd)
      rw [camelFrom, if_neg hne, if_neg Bool.false_ne_true]
      cases hdigit : c.isDigit with
      | true =>
        rw [hdigit] at htail
        rw [camelFrom_of_isDigit (isDigit_of_camelFrom_true hcs htail) true]
      | false =>
        rw [hdigit] at htail
        rw [ih hcs htail]

end Again

theorem IsSnake.forall_mem {name : String} (h : IsSnake name) :
    ∀ c ∈ name.toList, isSnakeChar c = true := List.all_eq_true.mp h

theorem toList_camel {name : String} (h : IsSnake name) :
    (camel name).toList = camelFrom false name.toList := by
  rw [camel, String.toList_ofList, camelChars_of_isSnake h.forall_mem]

/-- The camel case of a name has no capital only if there is nothing to raise in it. -/
theorem camel_camel {name : String} (h : IsSnake name) (hcamel : IsSnake (camel name)) :
    camel (camel name) = camel name := by
  refine String.toList_inj.mp ?_
  have hout := hcamel.forall_mem
  rw [toList_camel hcamel]
  rw [toList_camel h] at hout ⊢
  exact camelFrom_camelFrom h.forall_mem hout

end SingleTable.Text
