import SingleTable.Proofs.Query.Language

/-! # Faults of queries

A document that asks for no query is refused for its first fault, in the order in which it is read:
the chain of an entry comes before its key, the key before the condition, and the entries of a filter
before its order.

* `Filter.ListFault`, `Filter.EntryFault`: the faults of entries; `Query.OrderFault`: of orders.
* `Query.IsRefused`: the fault of a document.
* `Query.isRefused_iff`: a document is refused for exactly this fault.
-/

namespace SingleTable

/-! ## Faults -/

namespace Filter

/-- A token that names nothing, or is no text. -/
inductive Misnames {α : Type} (ofToken? : String → Option α) (unknown : String → Refusal)
    (notText : Refusal) : Option Json → Refusal → Prop
  | unknown {s : String} (h : ofToken? s = none) :
    Misnames ofToken? unknown notText (some (.string s)) (unknown s)
  | notText {j : Json} (hnull : j ≠ .null) (htext : ∀ s, j ≠ .string s) :
    Misnames ofToken? unknown notText (some j) notText

inductive KeyFault (c : Catalog) (fields : Record) : Refusal → Prop
  | notText (h : ∀ key, fields.get? "key" ≠ some (.string key)) : KeyFault c fields .keyNotText
  | unknown {key : String} (hget : fields.get? "key" = some (.string key)) (hkey : key ∉ c.names) :
    KeyFault c fields (.unknownColumn key c)

inductive ComparisonFault (c : Catalog) (fields : Record) : Refusal → Prop
  | key {r : Refusal} (h : KeyFault c fields r) : ComparisonFault c fields r
  | condition {key : String} {r : Refusal} (hget : fields.get? "key" = some (.string key))
    (hkey : key ∈ c.names)
    (h : Misnames Condition.ofToken? .unknownCondition .conditionNotText
      (fields.get? "condition") r) : ComparisonFault c fields r
  | operand {key : String} {condition : Condition} {items : List Json}
    (hget : fields.get? "key" = some (.string key)) (hkey : key ∈ c.names)
    (hcondition : Names Condition.ofToken? .equals (fields.get? "condition") condition)
    (hvalue : Operand.decode (fields.get "value") = .raw (.array items))
    (hlength : 2 ≤ items.length) (hequals : condition ≠ .equals) (hisIn : condition ≠ .isIn) :
    ComparisonFault c fields (.listOperand key condition)

mutual
/-- No list of entries, or one with a first entry at fault. -/
inductive ListFault (c : Catalog) : Json → Refusal → Prop
  | notList {j : Json} (h : ∀ entries, ¬ Lists j entries) : ListFault c j .entriesNotList
  | entry {j e : Json} {entries before after : List Json} {r : Refusal} (hlist : Lists j entries)
    (hentries : entries = before ++ e :: after) (hbefore : ∀ b ∈ before, IsEntry c b)
    (h : EntryFault c e r) : ListFault c j r
inductive EntryFault (c : Catalog) : Json → Refusal → Prop
  | notObject {j : Json} (h : ∀ fields, j ≠ .object fields) : EntryFault c j .entryNotObject
  | chain {fields : Record} {r : Refusal}
    (h : Misnames Chain.ofToken? .unknownChain .chainNotText (fields.get? "chain") r) :
    EntryFault c (.object fields) r
  | group {fields : Record} {chain : Chain} {list : Json} {r : Refusal}
    (hchain : Names Chain.ofToken? .and (fields.get? "chain") chain)
    (hwhere : fields.get? "where" = some list) (h : ListFault c list r) :
    EntryFault c (.object fields) r
  | comparison {fields : Record} {chain : Chain} {r : Refusal}
    (hchain : Names Chain.ofToken? .and (fields.get? "chain") chain)
    (hwhere : fields.get? "where" = none) (h : ComparisonFault c fields r) :
    EntryFault c (.object fields) r
end

end Filter

namespace Query

inductive TermFault (c : Catalog) : Json → Refusal → Prop
  | name {key : String} (hkey : key ∉ c.names) :
    TermFault c (.string key) (.unknownColumn key c)
  | malformed {j : Json} (htext : ∀ key, j ≠ .string key)
    (hget : ∀ key, j.field? "key" ≠ some (.string key)) : TermFault c j .malformedOrder
  | key {fields : Record} {key : String} (hget : fields.get? "key" = some (.string key))
    (hkey : key ∉ c.names) : TermFault c (.object fields) (.unknownColumn key c)
  | direction {fields : Record} {key : String} {r : Refusal}
    (hget : fields.get? "key" = some (.string key)) (hkey : key ∈ c.names)
    (h : Filter.Misnames Direction.ofToken? .unknownDirection .malformedOrder
      (fields.get? "direction") r) : TermFault c (.object fields) r

inductive OrderFault (c : Catalog) : Json → Refusal → Prop
  | one {j : Json} {r : Refusal} (hnull : j ≠ .null) (hlist : ∀ items, j ≠ .array items)
    (h : TermFault c j r) : OrderFault c j r
  | many {items before after : List Json} {j : Json} {r : Refusal}
    (hitems : items = before ++ j :: after) (hbefore : ∀ i ∈ before, IsOrderTerm c i)
    (h : TermFault c j r) : OrderFault c (.array items) r

/-- The first fault of a document that asks for no query. -/
inductive IsRefused (c : Catalog) : Json → Refusal → Prop
  | notObject {j : Json} (h : ∀ fields, j ≠ .object fields) : IsRefused c j .filterNotObject
  | flat {fields before after : Record} {key : String} {value : Json}
    (hwhere : fields.get? "where" = none) (hfields : fields = before ++ (key, value) :: after)
    (hbefore : ∀ f ∈ before, f.1 ∈ c.names) (hkey : key ∉ c.names) :
    IsRefused c (.object fields) (.unknownColumn key c)
  | entries {fields : Record} {list : Json} {r : Refusal}
    (hwhere : fields.get? "where" = some list) (h : Filter.ListFault c list r) :
    IsRefused c (.object fields) r
  | order {fields : Record} {list j : Json} {r : Refusal}
    (hwhere : fields.get? "where" = some list) (hlist : Filter.IsEntryList c list)
    (horder : fields.get? "order" = some j) (h : OrderFault c j r) :
    IsRefused c (.object fields) r

end Query

/-! ## Steps that fail -/

section Steps
variable {ε α β : Type} {x : Except ε α} {e : ε}

theorem bind_eq_error_iff {f : α → Except ε β} :
    (x >>= f) = .error e ↔ x = .error e ∨ ∃ a, x = .ok a ∧ f a = .error e := by
  cases x with
  | error e' =>
    change Except.error e' = Except.error e ↔ _
    simp
  | ok a =>
    change f a = .error e ↔ _
    simp

theorem map_eq_error_iff {f : α → β} : x.map f = .error e ↔ x = .error e := by
  cases x with
  | error e' => simp [Except.map]
  | ok a => simp [Except.map]

end Steps

/-! ## Tokens and keys -/

namespace Filter

theorem readToken_eq_error_iff {α : Type} {ofToken? : String → Option α} {otherwise : α}
    {unknown : String → Refusal} {notText : Refusal} {field : Option Json} {r : Refusal} :
    readToken ofToken? otherwise unknown notText field = .error r ↔
      Misnames ofToken? unknown notText field r := by
  constructor
  · intro h
    unfold readToken at h
    split at h
    · cases h
    · cases h
    · split at h
      · cases h
      · rename_i hs
        obtain rfl := Except.error.inj h
        exact .unknown hs
    · rename_i j hnull htext
      obtain rfl := Except.error.inj h
      exact .notText (fun hj => hnull (hj ▸ rfl)) fun s hs => htext s (hs ▸ rfl)
  · intro h
    cases h with
    | unknown h => rw [readToken, h]
    | @notText j hnull htext =>
      cases j with
      | null => exact absurd rfl hnull
      | string s => exact absurd rfl (htext s)
      | _ => rfl

theorem checkColumn_eq_error_iff {c : Catalog} {key : String} {r : Refusal} :
    checkColumn c key = .error r ↔ key ∉ c.names ∧ r = .unknownColumn key c := by
  rw [← Catalog.contains_iff_mem_names, checkColumn]
  cases c.contains key with
  | true =>
    refine iff_of_false (fun h => ?_) fun h => h.1 rfl
    cases h
  | false =>
    exact ⟨fun h => ⟨Bool.false_ne_true, (Except.error.inj h).symm⟩,
      fun h => congrArg Except.error h.2.symm⟩

theorem readKey_eq_error_iff {c : Catalog} {fields : Record} {r : Refusal} :
    readKey c fields = .error r ↔ KeyFault c fields r := by
  constructor
  · intro h
    unfold readKey at h
    split at h
    · rename_i key hget
      rcases bind_eq_error_iff.mp h with h | ⟨_, -, h⟩
      · obtain ⟨hkey, rfl⟩ := checkColumn_eq_error_iff.mp h
        exact .unknown hget hkey
      · cases h
    · rename_i hget
      obtain rfl := Except.error.inj h
      exact .notText fun key hkey => hget key hkey
  · intro h
    cases h with
    | notText h =>
      unfold readKey
      split
      · rename_i key hget
        exact absurd hget (h key)
      · rfl
    | unknown hget hkey =>
      rw [readKey, hget]
      dsimp only
      rw [checkColumn_eq_error_iff.mpr ⟨hkey, rfl⟩]
      rfl

end Filter

/-! ## Lists of operands -/

theorem RightSide.settle_eq_error_iff {key : String} {c : Condition} {s : RightSide} {r : Refusal} :
    settle key c s = .error r ↔
      ∃ xs, s = .many xs ∧ 2 ≤ xs.length ∧ c ≠ .equals ∧ c ≠ .isIn ∧ r = .listOperand key c := by
  constructor
  · intro h
    match s with
    | one x | many [] | many [x] => cases c <;> cases h
    | many (x :: y :: rest) =>
      refine ⟨_, rfl, by simp, ?_⟩
      cases c with
      | equals => cases h
      | isIn => cases h
      | _ => exact ⟨nofun, nofun, (Except.error.inj h).symm⟩
  · rintro ⟨xs, rfl, hlength, hequals, hisIn, rfl⟩
    match xs with
    | [] | [_] => simp at hlength
    | x :: y :: rest =>
      cases c with
      | equals => contradiction
      | isIn => contradiction
      | _ => rfl

theorem Leaf.build_eq_error_iff {key : String} {c : Condition} {value : Json} {chain : Chain}
    {dateCast : Bool} {r : Refusal} :
    build key c value chain dateCast = .error r ↔
      ∃ items, Operand.decode value = .raw (.array items) ∧ 2 ≤ items.length ∧
        c ≠ .equals ∧ c ≠ .isIn ∧ r = .listOperand key c := by
  have hsettle : build key c value chain dateCast = .error r ↔
      RightSide.settle key c (.ofJson value) = .error r := by
    rw [build, bind_eq_error_iff]
    simp [pure, Except.pure]
  rw [hsettle, RightSide.settle_eq_error_iff]
  constructor
  · rintro ⟨xs, hxs, hlength, h⟩
    unfold RightSide.ofJson at hxs
    split at hxs
    · rename_i items hitems
      obtain rfl := RightSide.many.inj hxs
      exact ⟨items, hitems, by simpa using hlength, h⟩
    · cases hxs
  · rintro ⟨items, hitems, hlength, h⟩
    refine ⟨items.map Operand.decode, ?_, by simpa using hlength, h⟩
    rw [RightSide.ofJson, hitems]

/-! ## Entries -/

namespace Filter

theorem readLeaf_eq_error_iff {c : Catalog} {chain : Chain} {fields : Record} {r : Refusal} :
    readLeaf c chain fields = .error r ↔ ComparisonFault c fields r := by
  rw [readLeaf, bind_eq_error_iff, readKey_eq_error_iff]
  simp only [bind_eq_error_iff, readKey_eq_ok_iff, readCondition, readToken_eq_error_iff,
    readToken_eq_ok_iff, Leaf.build_eq_error_iff]
  constructor
  · rintro (h | ⟨key, ⟨hget, hkey⟩, h | ⟨condition, hcondition, items, hvalue, hlength, hequals,
      hisIn, rfl⟩⟩)
    · exact .key h
    · exact .condition hget hkey h
    · exact .operand hget hkey hcondition hvalue hlength hequals hisIn
  · intro h
    cases h with
    | key h => exact .inl h
    | condition hget hkey h => exact .inr ⟨_, ⟨hget, hkey⟩, .inl h⟩
    | operand hget hkey hcondition hvalue hlength hequals hisIn =>
      exact .inr ⟨_, ⟨hget, hkey⟩, .inr ⟨_, hcondition, _, hvalue, hlength, hequals, hisIn, rfl⟩⟩

theorem Lists.readEntries_eq {c : Catalog} {j : Json} {entries : List Json}
    (h : Lists j entries) : readEntries c j = readItems c entries := by
  cases h with
  | many => rw [readEntries]
  | one fields =>
    rw [readEntries, readItems]
    cases readEntry c fields with
    | error r => rfl
    | ok n =>
      rw [readItems]
      rfl

theorem readEntries_eq_of_not_lists {c : Catalog} {j : Json} (h : ∀ entries, ¬ Lists j entries) :
    readEntries c j = .error .entriesNotList := by
  cases j with
  | array items => exact absurd (.many items) (h items)
  | object fields => exact absurd (.one fields) (h _)
  | _ =>
    rw [readEntries]
    · nofun
    · nofun

/-- Entries that are read come to the first one at fault. -/
theorem readItems_eq_of_first {c : Catalog} {before rest : List Json} {r : Refusal}
    (hbefore : ∀ b ∈ before, IsEntry c b) (h : readItems c rest = .error r) :
    readItems c (before ++ rest) = .error r := by
  induction before with
  | nil => exact h
  | cons b before ih =>
    obtain ⟨hb, hrest⟩ := List.forall_mem_cons.mp hbefore
    obtain ⟨fields, n, rfl, hn⟩ := hb.exists_readEntry
    rw [List.cons_append, readItems, hn, ih hrest]
    rfl

mutual
theorem ListFault.readEntries_eq {c : Catalog} {j : Json} {r : Refusal} :
    ListFault c j r → readEntries c j = .error r
  | .notList h => readEntries_eq_of_not_lists h
  | .entry hlist hentries hbefore h => by
      rw [hlist.readEntries_eq, hentries]
      exact readItems_eq_of_first hbefore (h.readItems_eq _)
theorem EntryFault.readItems_eq {c : Catalog} {e : Json} {r : Refusal} :
    EntryFault c e r → ∀ rest, readItems c (e :: rest) = .error r
  | .notObject h, rest => by
      cases e with
      | object fields => exact absurd rfl (h fields)
      | _ =>
        rw [readItems]
        nofun
  | .chain h, rest => by
      rw [readItems, readEntry, readChain, readToken_eq_error_iff.mpr h]
      rfl
  | .group hchain hwhere h, rest => by
      rw [readItems, readEntry_group c hwhere, readChain, readToken_eq_ok_iff.mpr hchain,
        h.readEntries_eq]
      rfl
  | .comparison hchain hwhere h, rest => by
      rw [readItems, readEntry_leaf c hwhere, readChain, readToken_eq_ok_iff.mpr hchain]
      change ((readLeaf c _ _).map Node.leaf >>= _) = _
      rw [readLeaf_eq_error_iff.mpr h]
      rfl
end

mutual
theorem listFault_of_readEntries {c : Catalog} {j : Json} {r : Refusal}
    (h : readEntries c j = .error r) : ListFault c j r := by
  cases j with
  | array items =>
    rw [readEntries] at h
    obtain ⟨before, e, after, hitems, hbefore, he⟩ := exists_fault_of_readItems h
    exact .entry (.many items) hitems hbefore he
  | object fields =>
    rw [readEntries, map_eq_error_iff] at h
    exact .entry (.one fields) (List.nil_append [Json.object fields]).symm (List.forall_mem_nil _)
      (entryFault_of_readEntry h)
  | _ =>
    simp only [readEntries, Except.error.injEq] at h
    subst h
    exact .notList fun entries => nofun
termination_by sizeOf j
theorem exists_fault_of_readItems {c : Catalog} {items : List Json} {r : Refusal}
    (h : readItems c items = .error r) :
    ∃ before e after, items = before ++ e :: after ∧ (∀ b ∈ before, IsEntry c b) ∧
      EntryFault c e r := by
  match items with
  | [] =>
    rw [readItems] at h
    cases h
  | .object fields :: rest =>
    rw [readItems] at h
    rcases bind_eq_error_iff.mp h with h | ⟨n, hn, h⟩
    · exact ⟨[], _, rest, rfl, List.forall_mem_nil _, entryFault_of_readEntry h⟩
    · rcases bind_eq_error_iff.mp h with h | ⟨ns, -, h⟩
      · obtain ⟨before, e, after, rfl, hbefore, he⟩ := exists_fault_of_readItems h
        exact ⟨.object fields :: before, e, after, rfl,
          List.forall_mem_cons.mpr ⟨(isEntry_of_readEntry hn).1, hbefore⟩, he⟩
      · cases h
  | .null :: rest | .bool _ :: rest | .number _ :: rest | .string _ :: rest | .array _ :: rest =>
    simp only [readItems, Except.error.injEq] at h
    subst h
    exact ⟨[], _, rest, rfl, List.forall_mem_nil _, .notObject nofun⟩
termination_by sizeOf items
theorem entryFault_of_readEntry {c : Catalog} {fields : Record} {r : Refusal}
    (h : readEntry c fields = .error r) : EntryFault c (.object fields) r := by
  cases hw : fields.get? "where" with
  | some list =>
    have hsize := Record.sizeOf_lt_of_get? hw
    rw [readEntry_group c hw] at h
    rcases bind_eq_error_iff.mp h with h | ⟨chain, hchain, h⟩
    · exact .chain (readToken_eq_error_iff.mp h)
    · exact .group (readToken_eq_ok_iff.mp hchain) hw
        (listFault_of_readEntries (map_eq_error_iff.mp h))
  | none =>
    rw [readEntry_leaf c hw] at h
    rcases bind_eq_error_iff.mp h with h | ⟨chain, hchain, h⟩
    · exact .chain (readToken_eq_error_iff.mp h)
    · exact .comparison (readToken_eq_ok_iff.mp hchain) hw
        (readLeaf_eq_error_iff.mp (map_eq_error_iff.mp h))
termination_by sizeOf fields
end

/-! ## Fields -/

theorem readFlat_eq_error_iff {c : Catalog} {fields : Record} {r : Refusal} :
    readFlat c fields = .error r ↔ ∃ before key value after,
      fields = before ++ (key, value) :: after ∧ (∀ f ∈ before, f.1 ∈ c.names) ∧ key ∉ c.names ∧
        r = .unknownColumn key c := by
  induction fields with
  | nil => exact ⟨nofun, fun ⟨_, _, _, _, h, _⟩ => absurd h.symm (by simp)⟩
  | cons field rest ih =>
    obtain ⟨key, value⟩ := field
    obtain ⟨l, hl⟩ : ∃ l, Leaf.build key .equals value .and false = .ok l :=
      Leaf.exists_build_iff.mpr fun _ _ _ => .inl rfl
    rw [readFlat, bind_eq_error_iff, checkColumn_eq_error_iff, hl]
    constructor
    · rintro (⟨hkey, rfl⟩ | ⟨_, hcheck, h⟩)
      · exact ⟨[], key, value, rest, rfl, List.forall_mem_nil _, hkey, rfl⟩
      · have hkey : key ∈ c.names := checkColumn_eq_ok_iff.mp hcheck
        have hrest : readFlat c rest = .error r := map_eq_error_iff.mp h
        obtain ⟨before, key', value', after, rfl, hbefore, h⟩ := ih.mp hrest
        exact ⟨(key, value) :: before, key', value', after, rfl,
          List.forall_mem_cons.mpr ⟨hkey, hbefore⟩, h⟩
    · rintro ⟨before, key', value', after, hfields, hbefore, h⟩
      cases before with
      | nil =>
        obtain ⟨hfield, -⟩ := List.cons.inj hfields
        obtain ⟨rfl, rfl⟩ := Prod.mk.inj hfield
        exact .inl h
      | cons field before =>
        obtain ⟨rfl, rfl⟩ := List.cons.inj hfields
        obtain ⟨hkey, hbefore⟩ := List.forall_mem_cons.mp hbefore
        refine .inr ⟨(), checkColumn_eq_ok_iff.mpr hkey, ?_⟩
        exact map_eq_error_iff.mpr (ih.mpr ⟨before, key', value', after, rfl, hbefore, h⟩)

end Filter

/-! ## Orders -/

namespace Query

theorem termFault_of_readOrderTerm {c : Catalog} {j : Json} {r : Refusal}
    (h : readOrderTerm c j = .error r) : TermFault c j r := by
  unfold readOrderTerm at h
  split at h
  · rcases bind_eq_error_iff.mp h with h | ⟨_, -, h⟩
    · obtain ⟨hkey, rfl⟩ := Filter.checkColumn_eq_error_iff.mp h
      exact .name hkey
    · cases h
  · split at h
    · rename_i hget
      rcases bind_eq_error_iff.mp h with h | ⟨_, hcheck, h⟩
      · obtain ⟨hkey, rfl⟩ := Filter.checkColumn_eq_error_iff.mp h
        exact .key hget hkey
      · rcases bind_eq_error_iff.mp h with h | ⟨_, -, h⟩
        · exact .direction hget (Filter.checkColumn_eq_ok_iff.mp hcheck)
            (Filter.readToken_eq_error_iff.mp h)
        · cases h
    · rename_i hget
      obtain rfl := Except.error.inj h
      exact .malformed nofun fun key hkey => hget key hkey
  · rename_i htext hobject
    obtain rfl := Except.error.inj h
    refine .malformed (fun key hkey => htext key hkey) fun key hkey => ?_
    cases j with
    | object fields => exact hobject fields rfl
    | _ => cases hkey

theorem TermFault.readOrderTerm_eq {c : Catalog} {j : Json} {r : Refusal} (h : TermFault c j r) :
    readOrderTerm c j = .error r := by
  cases h with
  | name hkey =>
    rw [readOrderTerm, Filter.checkColumn_eq_error_iff.mpr ⟨hkey, rfl⟩]
    rfl
  | malformed htext hget =>
    unfold readOrderTerm
    split
    · rename_i key
      exact absurd rfl (htext key)
    · split
      · rename_i key hkey
        exact absurd hkey (hget key)
      · rfl
    · rfl
  | key hget hkey =>
    rw [readOrderTerm, hget]
    dsimp only
    rw [Filter.checkColumn_eq_error_iff.mpr ⟨hkey, rfl⟩]
    rfl
  | direction hget hkey h =>
    rw [readOrderTerm, hget]
    dsimp only
    rw [Filter.checkColumn_eq_ok_iff.mpr hkey, readDirection, Filter.readToken_eq_error_iff.mpr h]
    rfl

theorem readOrderTerm_eq_error_iff {c : Catalog} {j : Json} {r : Refusal} :
    readOrderTerm c j = .error r ↔ TermFault c j r :=
  ⟨termFault_of_readOrderTerm, TermFault.readOrderTerm_eq⟩

theorem readOrder_eq_error_iff {c : Catalog} {j : Json} {r : Refusal} :
    readOrder c j = .error r ↔ OrderFault c j r := by
  have hone : ∀ t : Json, t ≠ .null → (∀ items, t ≠ .array items) →
      (readOrder c t = .error r ↔ TermFault c t r) := by
    intro t hnull hlist
    have hmap : readOrder c t = (readOrderTerm c t).map fun x => [x] := by
      cases t with
      | null => exact absurd rfl hnull
      | array items => exact absurd rfl (hlist items)
      | _ => rfl
    rw [hmap, map_eq_error_iff, readOrderTerm_eq_error_iff]
  constructor
  · intro h
    cases j with
    | null => cases h
    | array items =>
      obtain ⟨before, x, after, hitems, hbefore, hx⟩ := mapM_eq_error_iff.mp h
      exact .many hitems (fun i hi => exists_readOrderTerm_iff.mp (hbefore i hi))
        (readOrderTerm_eq_error_iff.mp hx)
    | _ =>
      refine .one nofun nofun ((hone _ ?_ ?_).mp h)
      · nofun
      · nofun
  · intro h
    cases h with
    | one hnull hlist h => exact (hone j hnull hlist).mpr h
    | many hitems hbefore h =>
      exact mapM_eq_error_iff.mpr ⟨_, _, _, hitems,
        fun i hi => exists_readOrderTerm_iff.mpr (hbefore i hi), readOrderTerm_eq_error_iff.mpr h⟩

/-! ## Documents -/

theorem exists_readEntries_iff {c : Catalog} {list : Json} :
    (∃ ns, Filter.readEntries c list = .ok ns) ↔ Filter.IsEntryList c list := by
  constructor
  · rintro ⟨ns, h⟩
    obtain ⟨entries, hlist, hrel⟩ := Filter.exists_lists_of_readEntries h
    exact ⟨entries, hlist, ((List.forall₂_and_left entries ns).mp hrel).1⟩
  · rintro ⟨entries, hlist, h⟩
    exact Filter.exists_readEntries hlist fun e he => (h e he).exists_readEntry

theorem IsRefused.read_eq {c : Catalog} {input : Json} {r : Refusal} (h : IsRefused c input r) :
    read c input = .error r := by
  cases h with
  | notObject h =>
    cases input with
    | object fields => exact absurd rfl (h fields)
    | _ => rfl
  | @flat fields before after key value hwhere hfields hbefore hkey =>
    have hread : Filter.readFlat c fields = .error (.unknownColumn key c) :=
      Filter.readFlat_eq_error_iff.mpr ⟨before, key, value, after, hfields, hbefore, hkey, rfl⟩
    have hfield : (Json.object fields).field? "where" = none := hwhere
    rw [read_flat hfield, Filter.read_flat hwhere, hread]
    rfl
  | @entries fields list r hwhere h =>
    have hfield : (Json.object fields).field? "where" = some list := hwhere
    rw [read_structured hfield, Filter.read_structured hwhere, h.readEntries_eq]
    rfl
  | @order fields list j r hwhere hlist horder h =>
    obtain ⟨ns, hns⟩ := exists_readEntries_iff.mpr hlist
    have hfield : (Json.object fields).field? "where" = some list := hwhere
    have hbeside : (Json.object fields).field? "order" = some j := horder
    rw [read_structured hfield, Filter.read_structured hwhere, hns, hbeside]
    exact map_eq_error_iff.mpr (readOrder_eq_error_iff.mpr h)

theorem isRefused_of_structured {c : Catalog} {fields : Record} {list : Json} {r : Refusal}
    (hwhere : fields.get? "where" = some list) (h : read c (.object fields) = .error r) :
    IsRefused c (.object fields) r := by
  have hfield : (Json.object fields).field? "where" = some list := hwhere
  rw [read_structured hfield, Filter.read_structured hwhere] at h
  rcases bind_eq_error_iff.mp h with h | ⟨ns, hns, h⟩
  · exact .entries hwhere (Filter.listFault_of_readEntries h)
  · have hlist := exists_readEntries_iff.mp ⟨ns, hns⟩
    have horder := map_eq_error_iff.mp h
    cases ho : Record.get? fields "order" with
    | none =>
      have hbeside : (Json.object fields).field? "order" = none := ho
      rw [hbeside] at horder
      cases horder
    | some j =>
      have hbeside : (Json.object fields).field? "order" = some j := ho
      rw [hbeside] at horder
      exact .order hwhere hlist ho (readOrder_eq_error_iff.mp horder)

theorem isRefused_of_flat {c : Catalog} {fields : Record} {r : Refusal}
    (hwhere : fields.get? "where" = none) (h : read c (.object fields) = .error r) :
    IsRefused c (.object fields) r := by
  have hfield : (Json.object fields).field? "where" = none := hwhere
  rw [read_flat hfield, Filter.read_flat hwhere, map_eq_error_iff] at h
  obtain ⟨before, key, value, after, hfields, hbefore, hkey, rfl⟩ :=
    Filter.readFlat_eq_error_iff.mp h
  exact .flat hwhere hfields hbefore hkey

/-- **A document is refused for its first fault.** -/
theorem isRefused_iff {c : Catalog} {input : Json} {r : Refusal} :
    IsRefused c input r ↔ read c input = .error r := by
  refine ⟨IsRefused.read_eq, fun h => ?_⟩
  cases input with
  | object fields =>
    cases hwhere : Record.get? fields "where" with
    | none => exact isRefused_of_flat hwhere h
    | some list => exact isRefused_of_structured hwhere h
  | _ =>
    obtain rfl := Except.error.inj h
    exact .notObject nofun

theorem isAccepted_or_isRefused (c : Catalog) (input : Json) :
    IsAccepted c input ∨ ∃ r, IsRefused c input r := by
  cases h : read c input with
  | ok q => exact .inl (isAccepted_of_read h).1
  | error r => exact .inr ⟨r, isRefused_iff.mpr h⟩

end Query

end SingleTable
