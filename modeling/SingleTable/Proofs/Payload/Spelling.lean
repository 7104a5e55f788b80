import SingleTable.Proofs.Payload.Schema

/-! # The spelling of keys

A column is looked for under its name and under the camel case of its name. The convention says which
of the two comes first, and has no say over a payload that has only one of them.

* `Column.spellings`, `Catalog.SpellingsApart`: the keys of a column, and catalogs in which no key
  belongs to two columns.
* `Catalog.SpelledOnce`: a payload with at most one of the keys of every column.
* `Catalog.Respells`, `Json.respell`: the same payload with other keys for some of its columns.
* `Payload.valueOf?`: the value of a column under either key.
* `Payload.map_respell`: neither the spelling nor the convention changes what is mapped.
-/

namespace SingleTable

def Column.spellings (x : Column) : List String := [x.name, Text.camel x.name]

namespace Catalog

/-- No key belongs to two columns. -/
def SpellingsApart (c : Catalog) : Prop :=
  ∀ x ∈ c.columns, ∀ y ∈ c.columns, ∀ key ∈ x.spellings, key ∈ y.spellings → x = y

instance (c : Catalog) : Decidable c.SpellingsApart :=
  inferInstanceAs (Decidable (∀ x ∈ c.columns, ∀ y ∈ c.columns, ∀ key ∈ x.spellings, _))

/-- The payload has at most one of the keys of every column. -/
def SpelledOnce (c : Catalog) (payload : Json) : Prop :=
  ∀ x ∈ c.columns, ∀ key ∈ x.spellings, ∀ other ∈ x.spellings,
    (payload.field? key).isSome = true → (payload.field? other).isSome = true → key = other

instance (c : Catalog) (payload : Json) : Decidable (c.SpelledOnce payload) :=
  inferInstanceAs (Decidable (∀ x ∈ c.columns, ∀ key ∈ x.spellings, ∀ other ∈ x.spellings, _))

/-- Every key stays as it is, unless it is a key of a column and becomes a key of that column. -/
def Respells (c : Catalog) (spell : String → String) : Prop :=
  ∀ key, spell key = key ∨ ∃ x ∈ c.columns, key ∈ x.spellings ∧ spell key ∈ x.spellings

end Catalog

/-- The same fields under other keys. -/
def Record.respell (spell : String → String) (fields : Record) : Record :=
  fields.map fun field => (spell field.1, field.2)

def Json.respell (spell : String → String) : Json → Json
  | .object fields => .object (Record.respell spell fields)
  | j => j

theorem Record.contains_iff {r : Record} {key : String} :
    r.contains key = true ↔ ∃ field ∈ r, field.1 = key := by
  rw [contains, get?, List.lookup_isSome_iff]
  simp only [beq_iff_eq, eq_comm (a := key)]

namespace Payload

section Values
variable {c : Catalog} {n m : Naming} {isPartial : Bool} {payload other : Record} {x : Column}
  {spell : String → String} {key : String}

/-! ## The value of a column -/

/-- The first value that the payload has under a key of the column. -/
def valueOf? (payload : Record) (x : Column) : Option Json :=
  (payload.find? fun field => x.spellings.contains field.1).map (·.2)

theorem mem_candidates_iff : key ∈ n.candidates x.name ↔ key ∈ x.spellings := by
  cases n with
  | snake => exact Iff.rfl
  | camel => exact List.mem_pair.trans (or_comm.trans List.mem_pair.symm)

/-- A column is found by both conventions, if the payload does not have both of its keys. -/
theorem find?_eq_valueOf? (n : Naming) (honce : c.SpelledOnce (.object payload))
    (hx : x ∈ c.columns) : find? n payload x.name = valueOf? payload x := by
  unfold find? valueOf?
  cases hfound : payload.find? fun field => x.spellings.contains field.1 with
  | none =>
    rw [Option.map_none, List.findSome?_eq_none_iff]
    intro key hkey
    refine List.lookup_eq_none_iff.mpr fun field hfield => bne_iff_ne.mpr ?_
    rintro rfl
    exact List.find?_eq_none.mp hfound field hfield
      (List.contains_iff_mem.mpr (mem_candidates_iff.mp hkey))
  | some field =>
    obtain ⟨k, j⟩ := field
    obtain ⟨hk, before, after, hsplit, hbefore⟩ := List.find?_eq_some_iff_append.mp hfound
    have hget : payload.get? k = some j := by
      refine List.lookup_eq_some_iff.mpr ⟨before, after, hsplit, fun field hfield => ?_⟩
      refine bne_iff_ne.mpr ?_
      rintro rfl
      have hnot := hbefore field hfield
      rw [hk] at hnot
      cases hnot
    have honly : ∀ key ∈ n.candidates x.name, key ≠ k → payload.get? key = none := by
      intro key hkey hne
      by_contra hsome
      exact hne (honce x hx key (mem_candidates_iff.mp hkey) k (List.contains_iff_mem.mp hk)
        (Option.isSome_iff_ne_none.mpr hsome) (Option.isSome_of_eq_some hget))
    have hmem : k ∈ n.candidates x.name := mem_candidates_iff.mpr (List.contains_iff_mem.mp hk)
    rw [Option.map_some]
    cases hfirst : (n.candidates x.name).findSome? payload.get? with
    | none =>
      rw [List.findSome?_eq_none_iff.mp hfirst k hmem] at hget
      cases hget
    | some v =>
      obtain ⟨key, hkey, hv⟩ := List.exists_of_findSome?_eq_some hfirst
      by_cases hne : key = k
      · rw [← hv, hne, hget]
      · rw [honly key hkey hne] at hv
        cases hv

/-! ## Other spellings -/

theorem spell_mem_spellings_iff (hapart : c.SpellingsApart) (hspell : c.Respells spell)
    (hx : x ∈ c.columns) : spell key ∈ x.spellings ↔ key ∈ x.spellings := by
  rcases hspell key with hsame | ⟨y, hy, hkey, hspelled⟩
  · rw [hsame]
  · constructor
    · intro h
      rwa [hapart x hx y hy (spell key) h hspelled]
    · intro h
      rwa [hapart x hx y hy key h hkey]

theorem valueOf?_respell (hapart : c.SpellingsApart) (hspell : c.Respells spell)
    (hx : x ∈ c.columns) (payload : Record) :
    valueOf? (payload.respell spell) x = valueOf? payload x := by
  have hkeys : (fun field : String × Json => x.spellings.contains field.1) ∘
      (fun field : String × Json => (spell field.1, field.2)) =
        fun field => x.spellings.contains field.1 := by
    funext field
    rw [Function.comp, Bool.eq_iff_iff, List.contains_iff_mem, List.contains_iff_mem]
    exact spell_mem_spellings_iff hapart hspell hx
  unfold valueOf? Record.respell
  rw [List.find?_map, hkeys, Option.map_map]
  rfl

theorem spelledOnce_respell (hapart : c.SpellingsApart) (hspell : c.Respells spell)
    (honce : c.SpelledOnce (.object payload)) :
    c.SpelledOnce (.object (payload.respell spell)) := by
  have hsource : ∀ x ∈ c.columns, ∀ key ∈ x.spellings,
      (payload.respell spell).contains key = true →
        ∃ k ∈ x.spellings, payload.contains k = true ∧ spell k = key := by
    intro x hx key hkey hpresent
    obtain ⟨_, hmem, rfl⟩ := Record.contains_iff.mp hpresent
    obtain ⟨field, hfield, rfl⟩ := List.mem_map.mp hmem
    exact ⟨field.1, (spell_mem_spellings_iff hapart hspell hx).mp hkey,
      Record.contains_iff.mpr ⟨field, hfield, rfl⟩, rfl⟩
  intro x hx key hkey key' hkey' hpresent hpresent'
  obtain ⟨k, hk, hcontains, rfl⟩ := hsource x hx key hkey hpresent
  obtain ⟨l, hl, hcontains', rfl⟩ := hsource x hx key' hkey' hpresent'
  rw [honce x hx k hk l hl hcontains hcontains']

theorem find?_respell (n : Naming) (hapart : c.SpellingsApart) (hspell : c.Respells spell)
    (honce : c.SpelledOnce (.object payload)) (hx : x ∈ c.columns) :
    find? n (payload.respell spell) x.name = find? n payload x.name := by
  rw [find?_eq_valueOf? n (spelledOnce_respell hapart hspell honce) hx,
    valueOf?_respell hapart hspell hx, find?_eq_valueOf? n honce hx]

/-! ## Two conventions -/

/-- Conventions that find the same for a column differ in the key under which they miss it. -/
theorem mapColumn_kind (h : find? n payload x.name = find? m other x.name) :
    (mapColumn c n isPartial payload x).mapError Refusal.kind =
      (mapColumn c m isPartial other x).mapError Refusal.kind := by
  unfold mapColumn
  rw [h]
  split
  · split <;> rfl
  · split <;> rfl
  · split <;> rfl

theorem mapError_bind {ε ε' α β : Type} (f : ε → ε') (r : Except ε α) (g : α → Except ε β) :
    (r >>= g).mapError f = r.mapError f >>= fun a => (g a).mapError f := by
  cases r <;> rfl

theorem mapColumns_kind {xs : List Column}
    (h : ∀ x ∈ xs, find? n payload x.name = find? m other x.name) :
    (mapColumns c n isPartial payload xs).mapError Refusal.kind =
      (mapColumns c m isPartial other xs).mapError Refusal.kind := by
  induction xs with
  | nil => rfl
  | cons x xs ih =>
    have hx : (mapColumn c n isPartial payload x).mapError Refusal.kind =
        (mapColumn c m isPartial other x).mapError Refusal.kind :=
      mapColumn_kind (h x List.mem_cons_self)
    have hxs := ih fun y hy => h y (List.mem_cons_of_mem x hy)
    simp only [mapColumns, mapError_bind, hx, hxs]

theorem map_kind (h : ∀ x ∈ c.columns, find? n payload x.name = find? m other x.name) :
    (map c n isPartial (.object payload)).mapError Refusal.kind =
      (map c m isPartial (.object other)).mapError Refusal.kind := by
  simp only [map, mapError_bind, mapColumns_kind h]

end Values

/-- **Neither the spelling of keys nor the convention changes what is mapped.** If no key belongs to
two columns and the payload has at most one key of every column, any of its keys may be replaced by
the other key of the same column: the record or the refusal stays. The two conventions give the same
record, or refusals of the same kind. -/
theorem map_respell {c : Catalog} (hapart : c.SpellingsApart) {payload : Json}
    (honce : c.SpelledOnce payload) (isPartial : Bool) :
    (∀ spell, c.Respells spell → ∀ n,
      map c n isPartial (payload.respell spell) = map c n isPartial payload) ∧
    (map c .snake isPartial payload).mapError Refusal.kind =
      (map c .camel isPartial payload).mapError Refusal.kind := by
  cases payload with
  | object fields =>
    constructor
    · intro spell hspell n
      exact map_eq_of_find?_eq (fun x hx => find?_respell n hapart hspell honce hx) isPartial
    · refine map_kind fun x hx => ?_
      rw [find?_eq_valueOf? .snake honce hx, find?_eq_valueOf? .camel honce hx]
  | _ => exact ⟨fun _ _ _ => rfl, rfl⟩

/-- Two of three columns are respelled, one of them away from its name and one of them back to it. -/
theorem map_respell_people :
    let c := Catalog.ofList
      [⟨"first_name", .string, true⟩, ⟨"line_2", .string, false⟩, ⟨"age", .integer, false⟩]
    let payload := Json.object
      [("other", .bool true), ("line_2", .string "b"), ("firstName", .string "Ada"),
       ("age", .number (.int 3))]
    let spell := fun key =>
      if key = "firstName" then "first_name" else if key = "line_2" then "line2" else key
    let r : Record := [("first_name", .string "Ada"), ("line_2", .string "b"), ("age", .number (.int 3))]
    c.SpellingsApart ∧ c.SpelledOnce payload ∧ c.Respells spell ∧
      payload.respell spell = .object
        [("other", .bool true), ("line2", .string "b"), ("first_name", .string "Ada"),
         ("age", .number (.int 3))] ∧
      map c .camel false (payload.respell spell) = .ok r ∧
      (map c .snake false payload).mapError Refusal.kind = .ok r := by
  intro c payload spell r
  have hapart : c.SpellingsApart := by decide +kernel
  have honce : c.SpelledOnce payload := by decide +kernel
  have hspell : c.Respells spell := by
    intro key
    dsimp only [spell]
    split
    · rename_i h
      exact .inr ⟨⟨"first_name", .string, true⟩, by decide +kernel, by rw [h]; decide +kernel,
        by decide +kernel⟩
    · split
      · rename_i h
        exact .inr ⟨⟨"line_2", .string, false⟩, by decide +kernel, by rw [h]; decide +kernel,
          by decide +kernel⟩
      · exact .inl rfl
  have hmap : map c .camel false payload = .ok r := rfl
  obtain ⟨hsame, hkind⟩ := map_respell hapart honce false
  exact ⟨hapart, honce, hspell, rfl, (hsame spell hspell .camel).trans hmap,
    hkind.trans (congrArg (Except.mapError Refusal.kind) hmap)⟩

end Payload

end SingleTable
