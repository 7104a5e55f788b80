import SingleTable.Proofs.Number.Size
import SingleTable.Proofs.Payload.Shape

/-! # Numbers in a mapped record

A column keeps the numbers of its values, at every depth of an array. Only a whole double that is
kept as an integer can become another number: beyond a signed word it turns into the nearest one
that the word holds.

* `ColumnType.SameNumbers`: what is kept has the numbers of what was given.
* `ColumnType.Fits`: the doubles that were given for integers are held by a word.
* `ColumnType.fits_iff_sameNumbers`: for a value that is kept, the two come to the same.
* `Payload.numbers_of_map`: so it is for every field of a mapped record.
-/

namespace SingleTable

/-- A double that is to be an integer has to be held by a signed 64 bit word. -/
def Number.Fits : Number → Prop
  | int _ => True
  | double x => fitsSigned x.truncate = true

namespace ColumnType

/-! ## Numbers that are kept -/

/-- Whole numbers stand in `k` where integers are demanded, and everywhere the numbers of `j`. -/
def SameNumbers : ColumnType → Json → Json → Prop
  | integer, j, k | serial, j, k =>
    ∃ (m : Number) (n : Int), j = .number m ∧ k = .number (.int n) ∧ m.toRat = n
  | number, j, k | float, j, k =>
    ∃ m n : Number, j = .number m ∧ k = .number n ∧ m.toRat = n.toRat
  | point, j, k => ∀ axis ∈ ["x", "y"], ∃ m n : Number,
      j.field? axis = some (.number m) ∧ k.field? axis = some (.number n) ∧ m.toRat = n.toRat
  | array inner, j, k => ∃ js ks, j = .array js ∧ k = .array ks ∧
      List.Forall₂ (fun j k => j = .null ∧ k = .null ∨ inner.SameNumbers j k) js ks
  | _, _, _ => True

/-- Every number that is given for an integer fits. -/
def Fits : ColumnType → Json → Prop
  | integer, .number m | serial, .number m => m.Fits
  | array inner, .array items => ∀ j ∈ items, inner.Fits j
  | _, _ => True

theorem fits_null (t : ColumnType) : t.Fits .null := by
  cases t <;> exact trivial

/-- An integer column keeps a number exactly when it fits. -/
theorem toRat_of_checkInteger {m : Number} {k : Json} (h : checkInteger m = some k) :
    ∃ n : Int, k = .number (.int n) ∧ (m.Fits ↔ m.toRat = n) := by
  cases m with
  | int n => exact ⟨n, (Option.some.inj h).symm, fun _ => rfl, fun _ => trivial⟩
  | double x =>
    dsimp only [checkInteger] at h
    split at h
    · rename_i hx
      refine ⟨_, (Option.some.inj h).symm, ?_⟩
      change fitsSigned x.truncate = true ↔ x.toRat = _
      rw [Double.toRat_of_isIntegral hx, Int.cast_inj, ← clampSigned_eq_iff]
      exact eq_comm
    · cases h

theorem exists_of_isFiniteNumber {j : Json} (h : isFiniteNumber j = true) :
    ∃ m, j = .number m := by
  cases j with
  | number m => exact ⟨m, rfl⟩
  | _ => cases h

theorem sameNumbers_of_checkPoint {j k : Json} (h : checkPoint j = some k) :
    point.SameNumbers j k := by
  obtain ⟨x, hx, h⟩ := Option.bind_eq_some_iff.mp h
  obtain ⟨y, hy, h⟩ := Option.bind_eq_some_iff.mp h
  split at h
  · rename_i hfinite
    rw [Bool.and_eq_true] at hfinite
    obtain ⟨m, rfl⟩ := exists_of_isFiniteNumber hfinite.1
    obtain ⟨n, rfl⟩ := exists_of_isFiniteNumber hfinite.2
    obtain rfl := Option.some.inj h
    intro axis haxis
    rcases List.mem_pair.mp haxis with rfl | rfl
    · exact ⟨m, m, hx, rfl, rfl⟩
    · exact ⟨n, n, hy, rfl, rfl⟩
  · cases h

theorem fits_iff_of_checkInteger {t : ColumnType} (ht : t = integer ∨ t = serial) {j k : Json}
    (h : t.checkScalar j = some k) : t.Fits j ↔ t.SameNumbers j k := by
  have hnumber : ∃ m, j = .number m ∧ checkInteger m = some k := by
    rcases ht with rfl | rfl
    · cases j with
      | number m => exact ⟨m, rfl, h⟩
      | _ => cases h
    · cases j with
      | number m => exact ⟨m, rfl, h⟩
      | _ => cases h
  obtain ⟨m, rfl, hcheck⟩ := hnumber
  obtain ⟨n, rfl, hiff⟩ := toRat_of_checkInteger hcheck
  have hsame : integer.SameNumbers (.number m) (.number (.int n)) ↔ m.toRat = n := by
    constructor
    · rintro ⟨m', n', hm, hn, hrat⟩
      cases hm
      cases hn
      exact hrat
    · exact fun hrat => ⟨m, n, rfl, rfl, hrat⟩
  rcases ht with rfl | rfl
  · exact hiff.trans hsame.symm
  · exact hiff.trans hsame.symm

theorem fits_iff_of_checkScalar {t : ColumnType} {j k : Json} (h : t.checkScalar j = some k) :
    t.Fits j ↔ t.SameNumbers j k := by
  cases t with
  | integer => exact fits_iff_of_checkInteger (.inl rfl) h
  | serial => exact fits_iff_of_checkInteger (.inr rfl) h
  | number =>
    cases j <;> cases h
    exact ⟨fun _ => ⟨_, _, rfl, rfl, rfl⟩, fun _ => trivial⟩
  | float =>
    cases j <;> cases h
    exact ⟨fun _ => ⟨_, _, rfl, rfl, rfl⟩, fun _ => trivial⟩
  | point => exact ⟨fun _ => sameNumbers_of_checkPoint h, fun _ => trivial⟩
  | array inner => cases h
  | _ => exact ⟨fun _ => trivial, fun _ => trivial⟩

theorem forall_iff_of_forall₂ {α β : Type} {R S : α → β → Prop} {P : α → Prop}
    (h : ∀ a b, R a b → (P a ↔ S a b)) {as : List α} {bs : List β} (hR : List.Forall₂ R as bs) :
    (∀ a ∈ as, P a) ↔ List.Forall₂ S as bs := by
  induction hR with
  | nil => exact ⟨fun _ => .nil, fun _ => nofun⟩
  | cons hab _ ih => rw [List.forall_mem_cons, List.forall₂_cons, h _ _ hab, ih]

/-- **A value that is kept has its numbers exactly when its doubles fit**, by induction on the
nesting of arrays. -/
theorem fits_iff_sameNumbers {t : ColumnType} {j k : Json} (h : t.check j = some k) :
    t.Fits j ↔ t.SameNumbers j k := by
  induction t generalizing j k with
  | array inner ih =>
    cases j with
    | array items =>
      obtain ⟨ks, hks, rfl⟩ := Option.map_eq_some_iff.mp h
      have hitem : ∀ j k, orNull inner.check j = some k →
          (inner.Fits j ↔ j = .null ∧ k = .null ∨ inner.SameNumbers j k) := by
        intro j k hj
        unfold orNull at hj
        split at hj
        · rename_i hnull
          obtain rfl := Option.some.inj hj
          obtain rfl := Json.isNull_iff.mp hnull
          exact ⟨fun _ => .inl ⟨rfl, rfl⟩, fun _ => inner.fits_null⟩
        · rename_i hne
          have hj' : ¬ (j = .null ∧ k = .null) := by
            rintro ⟨rfl, -⟩
            exact hne rfl
          rw [ih hj, or_iff_right hj']
      have hitems := forall_iff_of_forall₂ hitem (mapM_eq_some_iff.mp hks)
      constructor
      · exact fun hfits => ⟨items, ks, rfl, rfl, hitems.mp hfits⟩
      · rintro ⟨js, ks', hjs, hks', hall⟩
        cases hjs
        cases hks'
        exact hitems.mpr hall
    | _ => cases h
  | _ => exact fits_iff_of_checkScalar h

end ColumnType

/-! ## Records -/

namespace Payload

/-- **Mapping a payload changes no number but a double that is too large for an integer.** Every
field of the record was given; it is null as it was given, or it has the given numbers, exactly when
the doubles given for integers are held by a word. -/
theorem numbers_of_map {c : Catalog} {n : Naming} {isPartial : Bool} {payload : Json} {r : Record}
    (h : map c n isPartial payload = .ok r) :
    ∀ field ∈ r, ∃ x ∈ c.columns, x.name = field.1 ∧ ∃ j, given? n payload x.name = some j ∧
      (j = .null ∧ field.2 = .null ∨
        j ≠ .null ∧ field.2 ≠ .null ∧ (x.type.Fits j ↔ x.type.SameNumbers j field.2)) := by
  obtain ⟨fields, rfl, hcolumns⟩ := exists_of_map h
  intro field hfield
  obtain ⟨x, hx, hname, hfound⟩ := exists_column_of_mem hcolumns hfield
  refine ⟨x, hx, hname, ?_⟩
  rcases mapColumn_eq_ok hfound with ⟨-, -, hk⟩ | ⟨hfind, -, hk⟩ | ⟨j, k, hne, hfind, hcheck, hk⟩
  · cases hk
  · exact ⟨.null, hfind, .inl ⟨rfl, Option.some.inj hk⟩⟩
  · obtain rfl := Option.some.inj hk
    exact ⟨j, hfind, .inr ⟨hne, (ColumnType.check_of_check hcheck).2,
      ColumnType.fits_iff_sameNumbers hcheck⟩⟩

section OneColumn
variable {x : Column} {n : Naming} {isPartial : Bool} {fields : Record} {j k : Json}

theorem mapColumn_of_check {c : Catalog} (hfind : find? n fields x.name = some j)
    (hne : j ≠ .null) (hcheck : x.type.check j = some k) :
    mapColumn c n isPartial fields x = .ok (some k) := by
  unfold mapColumn
  rw [hfind]
  split
  · contradiction
  · rename_i heq
    exact absurd (Option.some.inj heq) hne
  · rename_i heq
    obtain rfl := Option.some.inj heq
    rw [hcheck]

theorem map_of_check (hfind : find? n fields x.name = some j) (hne : j ≠ .null)
    (hcheck : x.type.check j = some k) :
    map (.ofList [x]) n isPartial (.object fields) = .ok [(x.name, k)] := by
  have hcolumns : (Catalog.ofList [x]).columns = [x] := rfl
  rw [map, hcolumns, mapColumns, mapColumn_of_check hfind hne hcheck]
  cases isPartial <;> rfl

end OneColumn

theorem numbers_of_map_nested :
    let type := ColumnType.array (.array .integer)
    let given := Json.array [.null, .array
      [.number (.double (.ofInt (-4))), .null, .number (.int 18446744073709551615)]]
    let kept := Json.array [.null, .array
      [.number (.int (-4)), .null, .number (.int 18446744073709551615)]]
    map (.ofList [⟨"marks", type, false⟩]) .snake true (.object [("marks", given)]) =
        .ok [("marks", kept)] ∧
      type.SameNumbers given kept := by
  intro type given kept
  have hint : (Double.ofInt (-4)).isIntegral = true := by decide +kernel
  have htruncate : (Double.ofInt (-4)).truncate = -4 := by decide +kernel
  have hclamp : clampSigned (-4) = -4 := by decide +kernel
  have hcheck : type.check given = some kept := by
    have hinteger : ColumnType.checkInteger (.double (.ofInt (-4))) =
        some (.number (.int (-4))) := by
      rw [ColumnType.checkInteger, hint, htruncate, hclamp]
      rfl
    simp only [type, given, kept, ColumnType.check, ColumnType.checkScalar, List.mapM_cons,
      List.mapM_nil, ColumnType.orNull, Json.isNull, Bool.false_eq_true, if_true, if_false,
      hinteger]
    rfl
  have hmap : map (.ofList [⟨"marks", type, false⟩]) .snake true (.object [("marks", given)]) =
      .ok [("marks", kept)] := map_of_check rfl Json.noConfusion hcheck
  refine ⟨hmap, ?_⟩
  obtain ⟨x, hx, -, j, hj, hnumbers⟩ := numbers_of_map hmap ("marks", kept) List.mem_cons_self
  obtain rfl : x = ⟨"marks", type, false⟩ := List.mem_singleton.mp hx
  obtain rfl : given = j := Option.some.inj hj
  rcases hnumbers with ⟨hnull, -⟩ | ⟨-, -, hiff⟩
  · dsimp only [given] at hnull
    cases hnull
  · refine hiff.mp ?_
    have hfits : fitsSigned (Double.ofInt (-4)).truncate = true := by
      rw [htruncate]
      decide +kernel
    intro i hi
    rcases List.mem_pair.mp hi with rfl | rfl
    · trivial
    · intro m hm
      rcases List.mem_cons.mp hm with rfl | hm
      · exact hfits
      · rcases List.mem_pair.mp hm with rfl | rfl <;> trivial

/-- A double beyond the words becomes the greatest word. -/
theorem numbers_of_map_clamped :
    let x := Double.ofInt (10 ^ 30)
    map (.ofList [⟨"n", .integer, false⟩]) .snake true (.object [("n", .number (.double x))]) =
        .ok [("n", .number (.int 9223372036854775807))] ∧
      (Number.double x).toRat ≠ (Number.int 9223372036854775807).toRat := by
  intro x
  have hint : x.isIntegral = true := by decide +kernel
  have htruncate : x.truncate = 1000000000000000019884624838656 := by decide +kernel
  have hclamp : clampSigned x.truncate = 9223372036854775807 := by decide +kernel
  refine ⟨?_, ?_⟩
  · have hcheck : ColumnType.checkInteger (.double x) =
        some (.number (.int 9223372036854775807)) := by
      rw [ColumnType.checkInteger, hint, hclamp]
      rfl
    exact map_of_check rfl Json.noConfusion hcheck
  · change x.toRat ≠ ((9223372036854775807 : Int) : ℚ)
    rw [Double.toRat_of_isIntegral hint, htruncate, Ne, Int.cast_inj]
    decide

end Payload

end SingleTable
