import Mathlib.Data.List.Induction
import Mathlib.Data.List.TakeWhile
import Mathlib.Tactic.Ring
import SingleTable.Text.Blank
import SingleTable.Text.Digits
import SingleTable.Text.Order
import SingleTable.Text.Scan

/-! # Digits as numbers

* `value_decimal`, `value_fixed`: the digits of a number read as this number.
* `value_append`: digits behind others.
* `span_fixed`: a field of a fixed width is read off the head of a text.
* `compareChars_of_isDigit`: digits of one width are ordered as texts as their values are.
-/

namespace SingleTable.Text

/-! ## Digits of a number -/

theorem isDigit_of_mem_decimal {n : Nat} {c : Char} (h : c ∈ decimal n) : isDigit c = true :=
  Nat.isDigit_of_mem_toDigits (by decide) (by decide) h

theorem value_decimal (n : Nat) : value (decimal n) = n := by
  have h := Nat.ofDigitChars_ten_toDigits (n := n)
  rw [Nat.ofDigitChars_eq_foldl] at h
  exact h

theorem toNat_digitChar (n : Nat) : (digitChar n).toNat = 48 + n % 10 := by
  have h : ∀ k : Fin 10, (Char.ofNat (48 + k)).toNat = 48 + k := by decide
  exact h ⟨n % 10, Nat.mod_lt n (by decide)⟩

theorem isDigit_digitChar (n : Nat) : isDigit (digitChar n) = true := by
  have h := toNat_digitChar n
  simp only [isDigit, Bool.and_eq_true, decide_eq_true_eq, Char.le_def, UInt32.le_iff_toNat_le]
  change 48 ≤ (digitChar n).toNat ∧ (digitChar n).toNat ≤ 57
  omega

theorem digitValue_digitChar (n : Nat) : digitValue (digitChar n) = n % 10 := by
  rw [digitValue, toNat_digitChar]
  exact Nat.add_sub_cancel_left ..

theorem isDigit_of_mem_fixed {w n : Nat} {c : Char} (h : c ∈ fixed w n) : isDigit c = true := by
  induction w generalizing n with
  | zero => cases h
  | succ w ih =>
    rcases List.mem_append.mp h with h | h
    · exact ih h
    · rw [List.mem_singleton.mp h]
      exact isDigit_digitChar n

/-! ## Values -/

theorem value_concat (ds : List Char) (c : Char) : value (ds ++ [c]) = 10 * value ds + digitValue c := by
  rw [value, List.foldl_append]
  rfl

theorem value_append (ds es : List Char) :
    value (ds ++ es) = value ds * 10 ^ es.length + value es := by
  induction es using List.reverseRecOn with
  | nil => simp [value]
  | append_singleton es c ih =>
    rw [← List.append_assoc, value_concat, value_concat, ih, List.length_append,
      List.length_singleton, pow_succ]
    ring

theorem value_singleton (c : Char) : value [c] = digitValue c := by
  change 10 * 0 + digitValue c = digitValue c
  omega

theorem value_cons (c : Char) (ds : List Char) :
    value (c :: ds) = digitValue c * 10 ^ ds.length + value ds := by
  rw [← List.singleton_append, value_append, value_singleton]

theorem value_fixed (w n : Nat) : value (fixed w n) = n % 10 ^ w := by
  induction w generalizing n with
  | zero => simp [fixed, value, Nat.mod_one]
  | succ w ih =>
    rw [fixed, value_concat, ih, digitValue_digitChar, pow_succ, Nat.mul_comm (10 ^ w), Nat.mod_mul]
    omega

theorem value_replicate_zero (k : Nat) : value (List.replicate k '0') = 0 := by
  induction k with
  | zero => rfl
  | succ k ih =>
    rw [List.replicate_succ', value_concat, ih]
    rfl

/-- Zeros in front of digits change nothing. -/
theorem value_zeros_append (k : Nat) (ds : List Char) :
    value (List.replicate k '0' ++ ds) = value ds := by
  rw [value_append, value_replicate_zero, Nat.zero_mul, Nat.zero_add]

/-- Zeros behind digits multiply by powers of ten. -/
theorem value_append_zeros (ds : List Char) (k : Nat) :
    value (ds ++ List.replicate k '0') = value ds * 10 ^ k := by
  rw [value_append, value_replicate_zero, List.length_replicate, Nat.add_zero]

theorem toNat_of_isDigit {c : Char} (h : isDigit c = true) :
    c.toNat = 48 + digitValue c ∧ digitValue c < 10 := by
  simp only [isDigit, Bool.and_eq_true, decide_eq_true_eq, Char.le_def, UInt32.le_iff_toNat_le] at h
  have hlow : 48 ≤ c.toNat := h.1
  have hhigh : c.toNat ≤ 57 := h.2
  change c.toNat = 48 + (c.toNat - 48) ∧ c.toNat - 48 < 10
  omega

theorem isBlank_of_isDigit {c : Char} (h : isDigit c = true) : isBlank c = false := by
  obtain ⟨hvalue, hlt⟩ := toNat_of_isDigit h
  simp only [isBlank, Bool.or_eq_false_iff, Bool.and_eq_false_iff, decide_eq_false_iff_not,
    beq_eq_false_iff_ne]
  omega

theorem toLower_of_isDigit {c : Char} (h : isDigit c = true) : c.toLower = c := by
  obtain ⟨hvalue, hlt⟩ := toNat_of_isDigit h
  refine dif_neg fun hcapital => ?_
  have hfrom : 65 ≤ c.toNat := hcapital.1
  omega

theorem value_lt {ds : List Char} (h : ∀ c ∈ ds, isDigit c = true) : value ds < 10 ^ ds.length := by
  induction ds using List.reverseRecOn with
  | nil => simp [value]
  | append_singleton ds c ih =>
    have hds := ih fun d hd => h d (List.mem_append_left [c] hd)
    have hc := (toNat_of_isDigit (h c (by simp))).2
    rw [value_concat, List.length_append, List.length_singleton, pow_succ]
    omega

/-! ## Texts of digits -/

/-- At least one character, all of them digits. -/
structure IsDigits (ds : List Char) : Prop where
  ne_nil : ds ≠ []
  isDigit : ∀ c ∈ ds, isDigit c = true

variable {ds : List Char}

theorem isDigits_decimal (n : Nat) : IsDigits (decimal n) :=
  ⟨Nat.toDigits_ne_nil, fun _ hc => isDigit_of_mem_decimal hc⟩

theorem IsDigits.append_zeros (h : IsDigits ds) (n : Nat) : IsDigits (ds ++ List.replicate n '0') where
  ne_nil := List.append_ne_nil_of_left_ne_nil h.ne_nil _
  isDigit c hc := by
    rcases List.mem_append.mp hc with hc | hc
    · exact h.isDigit c hc
    · rw [List.eq_of_mem_replicate hc]
      rfl

theorem IsDigits.zeros_append (h : IsDigits ds) (n : Nat) : IsDigits (List.replicate n '0' ++ ds) where
  ne_nil := List.append_ne_nil_of_right_ne_nil _ h.ne_nil
  isDigit c hc := by
    rcases List.mem_append.mp hc with hc | hc
    · rw [List.eq_of_mem_replicate hc]
      rfl
    · exact h.isDigit c hc

theorem IsDigits.takeWhile_eq (h : IsDigits ds) : ds.takeWhile Text.isDigit = ds :=
  List.takeWhile_eq_self_iff.mpr h.isDigit

theorem decimal_digitValue {c : Char} (h : isDigit c = true) : decimal (digitValue c) = [c] := by
  obtain ⟨hcode, hlt⟩ := toNat_of_isDigit h
  have hchar : Nat.digitChar (digitValue c) = c := by
    apply Char.toNat_inj.mp
    rw [Nat.toNat_digitChar_of_lt_ten hlt, hcode]
  rw [decimal, Nat.toDigits_of_lt_base hlt, hchar]

theorem decimal_concat {n : Nat} {c : Char} (hn : 0 < n) (hc : isDigit c = true) :
    decimal (10 * n + digitValue c) = decimal n ++ [c] := by
  have h := Nat.toDigits_append_toDigits (by decide : 1 < 10) hn (toNat_of_isDigit hc).2
  rw [← decimal_digitValue hc]
  exact h.symm

/-- Digits without a leading zero are those of their value. -/
theorem decimal_value (h : IsDigits ds) (hzero : ds.head? = some '0' → ds.length = 1) :
    decimal (value ds) = ds := by
  induction ds using List.reverseRecOn with
  | nil => exact absurd rfl h.ne_nil
  | append_singleton ds c ih =>
    have hc := h.isDigit c (List.mem_append_right ds List.mem_cons_self)
    by_cases hne : ds = []
    · rw [hne, List.nil_append, value_singleton, decimal_digitValue hc]
    have hhead : ds.head? ≠ some '0' := by
      intro h0
      have hlength := hzero (by rw [List.head?_append, h0]; rfl)
      rw [List.length_append, List.length_singleton] at hlength
      exact hne (List.length_eq_zero_iff.mp (by omega))
    have hself := ih ⟨hne, fun d hd => h.isDigit d (List.mem_append_left [c] hd)⟩
      fun h0 => absurd h0 hhead
    have hpos : 0 < value ds := by
      refine Nat.pos_of_ne_zero fun h0 => hhead ?_
      rw [← hself, h0]
      rfl
    rw [value_concat, decimal_concat hpos hc, hself]

/-! ## Reading fields -/

/-- A run of characters ends at the first one that does not belong to it. -/
theorem takeWhile_append_of_head {α : Type} {p : α → Bool} {s rest : List α}
    (hs : ∀ c ∈ s, p c = true) (hr : ∀ c ∈ rest.head?, p c = false) :
    (s ++ rest).takeWhile p = s ∧ (s ++ rest).dropWhile p = rest := by
  rw [List.takeWhile_append_of_pos hs, List.dropWhile_append_of_pos hs]
  cases rest with
  | nil => simp
  | cons c rest =>
    have hc : p c = false := hr c rfl
    simp [hc]

theorem span_fixed {lo w n : Nat} (hlo : lo ≤ w) (hn : n < 10 ^ w) (rest : List Char) :
    span lo w (fixed w n ++ rest) = some (n, rest) := by
  have hlength := length_fixed w n
  rw [span_append (fun c hc => isDigit_of_mem_fixed hc) (by omega) (by omega) (.inl hlength),
    value_fixed, Nat.mod_eq_of_lt hn]

/-! ## Order -/

theorem compareChars_append {cs ds es fs : List Char} (h : cs.length = ds.length) :
    compareChars (cs ++ es) (ds ++ fs) = (compareChars cs ds).then (compareChars es fs) := by
  induction cs generalizing ds with
  | nil =>
    obtain rfl := List.length_eq_zero_iff.mp h.symm
    rfl
  | cons c cs ih =>
    cases ds with
    | nil => cases h
    | cons d ds =>
      rw [List.cons_append, List.cons_append, compareChars, compareChars,
        ih (Nat.succ.inj h), Ordering.then_assoc]

theorem compare_add_left (k a b : Nat) : Ord.compare (k + a) (k + b) = Ord.compare a b := by
  simp only [Nat.compare_eq_ite_lt, Nat.add_lt_add_iff_left]

/-- The first digit that differs decides, whatever follows it. -/
theorem compare_mul_add {a b x y width : Nat} (hx : x < width) (hy : y < width) :
    Ord.compare (a * width + x) (b * width + y) = (Ord.compare a b).then (Ord.compare x y) := by
  rcases Nat.lt_trichotomy a b with hlt | rfl | hgt
  · have hmul := Nat.mul_le_mul_right width hlt
    rw [Nat.compare_eq_lt.mpr hlt]
    exact Nat.compare_eq_lt.mpr (by rw [Nat.succ_mul] at hmul; omega)
  · have hself : Ord.compare a a = .eq := Nat.compare_eq_eq.mpr rfl
    rw [hself, compare_add_left]
    rfl
  · have hmul := Nat.mul_le_mul_right width hgt
    rw [Nat.compare_eq_gt.mpr hgt]
    exact Nat.compare_eq_gt.mpr (by rw [Nat.succ_mul] at hmul; omega)

theorem compare_toNat_of_isDigit {c d : Char} (hc : isDigit c = true) (hd : isDigit d = true) :
    Ord.compare c.toNat d.toNat = Ord.compare (digitValue c) (digitValue d) := by
  rw [(toNat_of_isDigit hc).1, (toNat_of_isDigit hd).1, compare_add_left]

theorem compareChars_of_isDigit {ds es : List Char} (hlength : ds.length = es.length)
    (hds : ∀ c ∈ ds, isDigit c = true) (hes : ∀ c ∈ es, isDigit c = true) :
    compareChars ds es = Ord.compare (value ds) (value es) := by
  induction ds generalizing es with
  | nil =>
    obtain rfl := List.length_eq_zero_iff.mp hlength.symm
    rfl
  | cons c ds ih =>
    cases es with
    | nil => cases hlength
    | cons d es =>
      obtain ⟨hc, hds⟩ := List.forall_mem_cons.mp hds
      obtain ⟨hd, hes⟩ := List.forall_mem_cons.mp hes
      have hwidth : ds.length = es.length := Nat.succ.inj hlength
      have hlow := value_lt hds
      have hlow' := value_lt hes
      rw [hwidth] at hlow
      rw [compareChars, ih hwidth hds hes, compare_toNat_of_isDigit hc hd, value_cons, value_cons,
        hwidth, compare_mul_add hlow hlow']

theorem compareChars_fixed {w m n : Nat} (hm : m < 10 ^ w) (hn : n < 10 ^ w) :
    compareChars (fixed w m) (fixed w n) = Ord.compare m n := by
  have hlength : (fixed w m).length = (fixed w n).length := by rw [length_fixed, length_fixed]
  rw [compareChars_of_isDigit hlength (fun c hc => isDigit_of_mem_fixed hc)
    (fun c hc => isDigit_of_mem_fixed hc), value_fixed, value_fixed, Nat.mod_eq_of_lt hm,
    Nat.mod_eq_of_lt hn]

end SingleTable.Text
