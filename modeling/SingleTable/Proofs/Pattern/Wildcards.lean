import SingleTable.Pattern.Like

/-! # What a LIKE pattern means

* `Like.Matches`: the texts that a pattern describes, read off its characters, with the star as a
  wildcard or as a plain character.
* `Like.suffixes_cons`: matching all suffixes of a text at once, character by character.
* `Like.holds_iff_matches`: a pattern holds of the texts that it describes with stars as wildcards.
* `Like.matches_starToPercent`: the rewritten pattern describes the same without them.
-/

namespace SingleTable.Like

/-! ## Meaning -/

/-- Does the character stand for a run of characters? -/
def isRun (star : Bool) (c : Char) : Bool := c == '%' || star && c == '*'

/-- A character that stands for itself. -/
def isPlain (star : Bool) (c : Char) : Bool := !isRun star c && c != '_' && c != '\\'

theorem isPlain_iff {star : Bool} {c : Char} :
    isPlain star c = true ↔ c ≠ '%' ∧ (star = true → c ≠ '*') ∧ c ≠ '_' ∧ c ≠ '\\' := by
  cases star <;> simp [isPlain, isRun, and_assoc]

/-- The texts that a pattern describes, where `star` makes the star a second percent sign. -/
inductive Matches (star : Bool) : List Char → List Char → Prop
  | nil : Matches star [] []
  | run {w : Char} (hw : isRun star w = true) (skipped : List Char) {p t : List Char}
      (h : Matches star p t) : Matches star (w :: p) (skipped ++ t)
  | one (c : Char) {p t : List Char} (h : Matches star p t) : Matches star ('_' :: p) (c :: t)
  | escaped (c : Char) {p t : List Char} (h : Matches star p t) :
      Matches star ('\\' :: c :: p) (c :: t)
  | trailing : Matches star ['\\'] ['\\']
  | plain {c : Char} (hc : isPlain star c = true) {p t : List Char} (h : Matches star p t) :
      Matches star (c :: p) (c :: t)

theorem matches_plain_iff {star : Bool} {c d : Char} (hc : isPlain star c = true) {p t : List Char} :
    Matches star (c :: p) (d :: t) ↔ c = d ∧ Matches star p t := by
  obtain ⟨-, -, hone, hbackslash⟩ := isPlain_iff.mp hc
  constructor
  · intro h
    generalize htext : d :: t = text at h
    cases h with
    | run hw => simp [isPlain, hw] at hc
    | one => exact absurd rfl hone
    | escaped => exact absurd rfl hbackslash
    | trailing => exact absurd rfl hbackslash
    | plain _ h =>
      obtain ⟨rfl, rfl⟩ := List.cons.inj htext
      exact ⟨rfl, h⟩
  · rintro ⟨rfl, h⟩
    exact .plain hc h

/-! ## Suffixes of a text -/

theorem length_laterOr (bs : List Bool) : (laterOr bs).length = bs.length := by
  induction bs with
  | nil => rfl
  | cons b bs ih => simp [laterOr, ih]

theorem length_suffixes (ps : List Piece) (cs : List Char) :
    (suffixes ps cs).length = cs.length + 1 := by
  induction ps with
  | nil => simp [suffixes]
  | cons p ps ih =>
    change (p.suffixes cs (suffixes ps cs)).length = _
    cases p <;> simp [Piece.suffixes, length_laterOr, ih]

theorem suffixes_eq_cons (ps : List Piece) (cs : List Char) :
    suffixes ps cs = fits ps cs :: (suffixes ps cs).tail := by
  obtain ⟨b, rest, h⟩ := List.exists_cons_of_length_eq_add_one (length_suffixes ps cs)
  rw [fits, h]
  rfl

theorem suffixes_nil (ps : List Piece) : suffixes ps [] = [fits ps []] := by
  obtain ⟨b, h⟩ := List.length_eq_one_iff.mp (length_suffixes ps [])
  rw [fits, h]
  rfl

/-- A text with one more character in front has one more suffix; the answers for the others stay. -/
theorem suffixes_cons (ps : List Piece) (c : Char) (cs : List Char) :
    suffixes ps (c :: cs) = fits ps (c :: cs) :: suffixes ps cs := by
  have h : ∃ b, suffixes ps (c :: cs) = b :: suffixes ps cs := by
    induction ps with
    | nil => exact ⟨false, rfl⟩
    | cons p ps ih =>
      obtain ⟨b, hb⟩ := ih
      change ∃ b', p.suffixes (c :: cs) (suffixes ps (c :: cs)) = b' :: p.suffixes cs (suffixes ps cs)
      rw [hb]
      cases p with
      | run => exact ⟨_, rfl⟩
      | one =>
        rw [suffixes_eq_cons ps cs]
        exact ⟨_, rfl⟩
      | literal d =>
        rw [suffixes_eq_cons ps cs]
        exact ⟨_, rfl⟩
  obtain ⟨b, hb⟩ := h
  rw [fits, hb]
  rfl

/-! ## Pieces, one character at a time -/

@[simp] theorem fits_nil_iff (cs : List Char) : fits [] cs = true ↔ cs = [] := by
  cases cs <;> simp [fits, suffixes]

theorem fits_run_nil (ps : List Piece) : fits (.run :: ps) [] = fits ps [] := by
  change (laterOr (suffixes ps [])).headD false = _
  rw [suffixes_nil]
  exact Bool.or_false _

theorem fits_run_cons (ps : List Piece) (c : Char) (cs : List Char) :
    fits (.run :: ps) (c :: cs) = (fits ps (c :: cs) || fits (.run :: ps) cs) := by
  change (laterOr (suffixes ps (c :: cs))).headD false = _
  rw [suffixes_cons]
  rfl

theorem fits_run_iff (ps : List Piece) (cs : List Char) :
    fits (.run :: ps) cs = true ↔ ∃ skipped rest, cs = skipped ++ rest ∧ fits ps rest = true := by
  induction cs with
  | nil =>
    rw [fits_run_nil]
    constructor
    · exact fun h => ⟨[], [], rfl, h⟩
    · rintro ⟨skipped, rest, h, hrest⟩
      obtain ⟨rfl, rfl⟩ := List.nil_eq_append_iff.mp h
      exact hrest
  | cons c cs ih =>
    rw [fits_run_cons, Bool.or_eq_true, ih]
    constructor
    · rintro (h | ⟨skipped, rest, rfl, hrest⟩)
      · exact ⟨[], c :: cs, rfl, h⟩
      · exact ⟨c :: skipped, rest, rfl, hrest⟩
    · rintro ⟨_ | ⟨d, skipped⟩, rest, h, hrest⟩
      · exact .inl (h ▸ hrest)
      · obtain ⟨rfl, rfl⟩ := List.cons.inj h
        exact .inr ⟨skipped, rest, rfl, hrest⟩

theorem fits_one_iff (ps : List Piece) (cs : List Char) :
    fits (.one :: ps) cs = true ↔ ∃ c rest, cs = c :: rest ∧ fits ps rest = true := by
  change ((suffixes ps cs).tail ++ [false]).headD false = true ↔ _
  cases cs with
  | nil =>
    rw [suffixes_nil]
    simp
  | cons c cs =>
    rw [suffixes_cons, List.tail_cons, suffixes_eq_cons]
    constructor
    · exact fun h => ⟨c, cs, rfl, h⟩
    · rintro ⟨d, rest, h, hrest⟩
      obtain ⟨rfl, rfl⟩ := List.cons.inj h
      exact hrest

theorem fits_literal_iff (c : Char) (ps : List Piece) (cs : List Char) :
    fits (.literal c :: ps) cs = true ↔ ∃ rest, cs = c :: rest ∧ fits ps rest = true := by
  change (List.zipWith _ cs (suffixes ps cs).tail ++ [false]).headD false = true ↔ _
  cases cs with
  | nil => simp
  | cons d cs =>
    rw [suffixes_cons, List.tail_cons, suffixes_eq_cons]
    simp [and_assoc]

/-! ## Patterns and their pieces -/

/-- A character that begins neither an escape nor a backslash at the end. -/
theorem ne_backslash {c : Char} {p : List Char} (hend : c = '\\' → p = [] → False)
    (hescape : ∀ d rest, c = '\\' → p = d :: rest → False) : c ≠ '\\' := by
  intro hc
  cases p with
  | nil => exact hend hc rfl
  | cons d rest => exact hescape d rest hc rfl

theorem fits_pieces_of_matches {p t : List Char} (h : Matches true p t) :
    fits (pieces p) t = true := by
  induction h with
  | nil => rfl
  | @run w hw skipped p t h ih =>
    have hpieces : pieces (w :: p) = .run :: pieces p := by
      rcases Bool.or_eq_true_iff.mp hw with hw | hw
      · rw [eq_of_beq hw]
        rfl
      · rw [eq_of_beq hw]
        rfl
    rw [hpieces, fits_run_iff]
    exact ⟨skipped, t, rfl, ih⟩
  | one c h ih =>
    rw [pieces, fits_one_iff]
    exact ⟨c, _, rfl, ih⟩
  | escaped c h ih =>
    rw [pieces, fits_literal_iff]
    exact ⟨_, rfl, ih⟩
  | trailing => rfl
  | @plain c hc p t h ih =>
    have hpieces : pieces (c :: p) = .literal c :: pieces p := by
      obtain ⟨hpercent, hstar, hone, hbackslash⟩ := isPlain_iff.mp hc
      exact pieces.eq_7 c p (fun h => absurd h hbackslash) (fun _ _ h => absurd h hbackslash)
        hpercent (hstar rfl) hone
    rw [hpieces, fits_literal_iff]
    exact ⟨t, rfl, ih⟩

theorem matches_of_fits_pieces {p t : List Char} (h : fits (pieces p) t = true) :
    Matches true p t := by
  fun_induction pieces p generalizing t with
  | case1 =>
    rw [(fits_nil_iff t).mp h]
    exact .nil
  | case2 =>
    obtain ⟨rest, rfl, hrest⟩ := (fits_literal_iff _ _ _).mp h
    rw [(fits_nil_iff rest).mp hrest]
    exact .trailing
  | case3 c p ih =>
    obtain ⟨rest, rfl, hrest⟩ := (fits_literal_iff _ _ _).mp h
    exact .escaped c (ih hrest)
  | case4 p ih | case5 p ih =>
    obtain ⟨skipped, rest, rfl, hrest⟩ := (fits_run_iff _ _).mp h
    exact .run rfl skipped (ih hrest)
  | case6 p ih =>
    obtain ⟨c, rest, rfl, hrest⟩ := (fits_one_iff _ _).mp h
    exact .one c (ih hrest)
  | case7 c p hend hescape hpercent hstar hone ih =>
    obtain ⟨rest, rfl, hrest⟩ := (fits_literal_iff _ _ _).mp h
    have hplain : isPlain true c = true :=
      isPlain_iff.mpr ⟨hpercent, fun _ => hstar, hone, ne_backslash hend hescape⟩
    exact .plain hplain (ih hrest)

theorem matches_iff_fits (p t : List Char) : Matches true p t ↔ fits (pieces p) t = true :=
  ⟨fits_pieces_of_matches, matches_of_fits_pieces⟩

/-- **A pattern holds of the texts that it describes, the star being a wildcard.** -/
theorem holds_iff_matches (p t : String) : holds p t = true ↔ Matches true p.toList t.toList :=
  (matches_iff_fits p.toList t.toList).symm

/-! ## Stars written as percent signs -/

theorem starToPercent_of_notMem {cs : List Char} (h : '*' ∉ cs) : starToPercent cs = cs := by
  fun_induction starToPercent cs with
  | case1 => rfl
  | case2 => rfl
  | case3 c rest ih =>
    have hrest : '*' ∉ rest := fun hmem => h (List.mem_cons_of_mem _ (List.mem_cons_of_mem _ hmem))
    rw [ih hrest]
  | case4 c rest _ _ ih =>
    obtain ⟨hc, hrest⟩ := List.ne_and_not_mem_of_not_mem_cons h
    simp [hc.symm, ih hrest]

theorem starToPercent_cons {c : Char} (hstar : c ≠ '*') (hbackslash : c ≠ '\\') (p : List Char) :
    starToPercent (c :: p) = c :: starToPercent p := by
  rw [starToPercent.eq_4 c p (fun h => absurd h hbackslash) (fun _ _ h => absurd h hbackslash)]
  simp [hstar]

theorem Matches.starToPercent {p t : List Char} (h : Matches true p t) :
    Matches false (starToPercent p) t := by
  induction h with
  | nil => exact .nil
  | run hw skipped _ ih =>
    rcases Bool.or_eq_true_iff.mp hw with hw | hw
    · obtain rfl := eq_of_beq hw
      exact .run rfl skipped ih
    · obtain rfl := eq_of_beq hw
      exact .run rfl skipped ih
  | one c _ ih => exact .one c ih
  | escaped c _ ih => exact .escaped c ih
  | trailing => exact .trailing
  | @plain c hc p t _ ih =>
    obtain ⟨hpercent, hstar, hone, hbackslash⟩ := isPlain_iff.mp hc
    rw [starToPercent_cons (hstar rfl) hbackslash]
    exact .plain (isPlain_iff.mpr ⟨hpercent, (absurd · Bool.false_ne_true), hone, hbackslash⟩) ih

/-- A star that stands for itself is a run of one character. -/
theorem Matches.of_false {p t : List Char} (h : Matches false p t) : Matches true p t := by
  induction h with
  | nil => exact .nil
  | @run w hw skipped p t _ ih =>
    have hrun : isRun true w = true := by simp_all [isRun]
    exact .run hrun skipped ih
  | one c _ ih => exact .one c ih
  | escaped c _ ih => exact .escaped c ih
  | trailing => exact .trailing
  | @plain c hc p t _ ih =>
    by_cases hstar : c = '*'
    · have hrun : isRun true c = true := by simp [isRun, hstar]
      exact .run hrun [c] ih
    · obtain ⟨hpercent, -, hone, hbackslash⟩ := isPlain_iff.mp hc
      exact .plain (isPlain_iff.mpr ⟨hpercent, fun _ => hstar, hone, hbackslash⟩) ih

/-- **With percent signs for its stars a pattern describes what it did**, whether or not a star is
still a wildcard. -/
theorem matches_starToPercent (star : Bool) (p t : List Char) :
    Matches star (starToPercent p) t ↔ Matches true p t := by
  have htrue : Matches true (starToPercent p) t ↔ Matches true p t := by
    rw [matches_iff_fits, matches_iff_fits, pieces_starToPercent]
  cases star with
  | false => exact ⟨fun h => htrue.mp h.of_false, Matches.starToPercent⟩
  | true => exact htrue

end SingleTable.Like
