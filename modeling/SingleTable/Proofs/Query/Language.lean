import SingleTable.Proofs.Query.Normal

/-! # The language of queries

Which documents are queries, and which nodes stand for the parts of one, without reading it.

* `Filter.IsEntry`, `Filter.IsEntryList`: the entries of a filter; `Query.IsOrder`: the order beside
  them.
* `Query.IsAccepted`: the documents that ask for a query.
* `Filter.IsNodeOf`, `Filter.Keeps`: the node of an entry, and the nodes of a document.
* `Query.read_exact`: exactly the documents of the language are read, and their entries are kept.
* `Query.IsLooselyAccepted`: the documents of a language in which a comparison may have a `where`.
-/

namespace SingleTable

/-! ## The language -/

namespace Filter

/-- What an optional token names: nothing and null stand for `otherwise`. -/
inductive Names {α : Type} (ofToken? : String → Option α) (otherwise : α) : Option Json → α → Prop
  | absent : Names ofToken? otherwise none otherwise
  | null : Names ofToken? otherwise (some .null) otherwise
  | token {s : String} {x : α} (h : ofToken? s = some x) :
    Names ofToken? otherwise (some (.string s)) x

/-- The entries of an entry list. A single entry may stand for the list of it. -/
inductive Lists : Json → List Json → Prop
  | many (items : List Json) : Lists (.array items) items
  | one (fields : Record) : Lists (.object fields) [.object fields]

/-- A column, a condition, and a value that is a list of two or more operands only if the condition
is equality or membership. -/
structure IsComparison (c : Catalog) (fields : Record) : Prop where
  key : ∃ key, fields.get? "key" = some (.string key) ∧ key ∈ c.names
  condition : ∃ condition,
    Names Condition.ofToken? .equals (fields.get? "condition") condition ∧
      ∀ items, Operand.decode (fields.get "value") = .raw (.array items) → 2 ≤ items.length →
        condition = .equals ∨ condition = .isIn

/-- An object with a chain that is a group of entries, if it has the field `where`, or else a
comparison. -/
inductive IsEntry (c : Catalog) : Json → Prop
  | group {fields : Record} {chain : Chain} {list : Json} {entries : List Json}
    (hchain : Names Chain.ofToken? .and (fields.get? "chain") chain)
    (hwhere : fields.get? "where" = some list) (hlist : Lists list entries)
    (h : ∀ e ∈ entries, IsEntry c e) : IsEntry c (.object fields)
  | comparison {fields : Record} {chain : Chain}
    (hchain : Names Chain.ofToken? .and (fields.get? "chain") chain)
    (hwhere : fields.get? "where" = none) (h : IsComparison c fields) : IsEntry c (.object fields)

def IsEntryList (c : Catalog) (list : Json) : Prop :=
  ∃ entries, Lists list entries ∧ ∀ e ∈ entries, IsEntry c e

end Filter

namespace Query

/-- The name of a column, or an object with one and perhaps a direction. -/
inductive IsOrderTerm (c : Catalog) : Json → Prop
  | name {key : String} (hkey : key ∈ c.names) : IsOrderTerm c (.string key)
  | term {fields : Record} {key : String} {direction : Direction}
    (hget : fields.get? "key" = some (.string key)) (hkey : key ∈ c.names)
    (hdirection : Filter.Names Direction.ofToken? .ascending (fields.get? "direction") direction) :
    IsOrderTerm c (.object fields)

inductive IsOrder (c : Catalog) : Option Json → Prop
  | absent : IsOrder c none
  | null : IsOrder c (some .null)
  | one {j : Json} (h : IsOrderTerm c j) : IsOrder c (some j)
  | many {items : List Json} (h : ∀ j ∈ items, IsOrderTerm c j) : IsOrder c (some (.array items))

/-- An object whose fields are columns, or one with entries and perhaps an order. -/
inductive IsAccepted (c : Catalog) : Json → Prop
  | flat {fields : Record} (hwhere : fields.get? "where" = none)
    (h : ∀ key ∈ fields.keys, key ∈ c.names) : IsAccepted c (.object fields)
  | structured {fields : Record} {list : Json} (hwhere : fields.get? "where" = some list)
    (hlist : Filter.IsEntryList c list) (horder : IsOrder c (fields.get? "order")) :
    IsAccepted c (.object fields)

end Query

/-! ## Nodes of a document -/

namespace Filter

/-- The node of an entry: a group of the nodes of its entries, or a leaf built from its fields. -/
inductive IsNodeOf : Json → Node → Prop
  | group {fields : Record} {chain : Chain} {list : Json} {entries : List Json} {ns : List Node}
    (hchain : Names Chain.ofToken? .and (fields.get? "chain") chain)
    (hwhere : fields.get? "where" = some list) (hlist : Lists list entries)
    (h : List.Forall₂ IsNodeOf entries ns) : IsNodeOf (.object fields) (.group chain ns)
  | leaf {fields : Record} {key : String} {condition : Condition} {chain : Chain} {l : Leaf}
    (hchain : Names Chain.ofToken? .and (fields.get? "chain") chain)
    (hwhere : fields.get? "where" = none) (hkey : fields.get? "key" = some (.string key))
    (hcondition : Names Condition.ofToken? .equals (fields.get? "condition") condition)
    (h : Leaf.build key condition (fields.get "value") chain (fields.get "date").isTruthy = .ok l) :
    IsNodeOf (.object fields) (.leaf l)

/-- The leaf of a field: an equality. -/
inductive IsLeafOf : String × Json → Node → Prop
  | leaf {key : String} {value : Json} {l : Leaf}
    (h : Leaf.build key .equals value .and false = .ok l) : IsLeafOf (key, value) (.leaf l)

/-- The nodes of a document, one for each of its entries or fields, in their order. -/
inductive Keeps : Json → List Node → Prop
  | flat {fields : Record} {ns : List Node} (hwhere : fields.get? "where" = none)
    (h : List.Forall₂ IsLeafOf fields ns) : Keeps (.object fields) ns
  | structured {fields : Record} {list : Json} {entries : List Json} {ns : List Node}
    (hwhere : fields.get? "where" = some list) (hlist : Lists list entries)
    (h : List.Forall₂ IsNodeOf entries ns) : Keeps (.object fields) ns

end Filter

/-! ## Tokens and keys -/

namespace Filter

theorem readToken_eq_ok_iff {α : Type} {ofToken? : String → Option α} {otherwise x : α}
    {unknown : String → Refusal} {notText : Refusal} {field : Option Json} :
    readToken ofToken? otherwise unknown notText field = .ok x ↔
      Names ofToken? otherwise field x := by
  constructor
  · intro h
    unfold readToken at h
    split at h
    · obtain rfl := Except.ok.inj h
      exact .absent
    · obtain rfl := Except.ok.inj h
      exact .null
    · split at h
      · rename_i hs
        obtain rfl := Except.ok.inj h
        exact .token hs
      · cases h
    · cases h
  · intro h
    cases h with
    | absent => rfl
    | null => rfl
    | token h => rw [readToken, h]

theorem checkColumn_eq_ok_iff {c : Catalog} {key : String} :
    checkColumn c key = .ok () ↔ key ∈ c.names := by
  rw [← Catalog.contains_iff_mem_names]
  refine ⟨contains_of_checkColumn, fun h => ?_⟩
  rw [checkColumn, if_pos h]

theorem readKey_eq_ok_iff {c : Catalog} {fields : Record} {key : String} :
    readKey c fields = .ok key ↔ fields.get? "key" = some (.string key) ∧ key ∈ c.names := by
  constructor
  · intro h
    refine ⟨?_, Catalog.contains_iff_mem_names.mp (contains_of_readKey h)⟩
    unfold readKey at h
    split at h
    · rename_i hget
      obtain ⟨_, -, h⟩ := exists_of_bind_ok h
      rw [hget, Except.ok.inj h]
    · cases h
  · rintro ⟨hget, hkey⟩
    rw [readKey, hget]
    dsimp only
    rw [checkColumn_eq_ok_iff.mpr hkey]
    rfl

end Filter

/-! ## Lists of operands -/

namespace RightSide

theorem exists_settle_iff {key : String} {c : Condition} {r : RightSide} :
    (∃ p, settle key c r = .ok p) ↔
      ∀ xs, r = .many xs → 2 ≤ xs.length → c = .equals ∨ c = .isIn := by
  constructor
  · rintro ⟨p, hp⟩ xs rfl hlength
    match xs with
    | [] | [_] => simp at hlength
    | x :: y :: rest =>
      cases c with
      | equals => exact .inl rfl
      | isIn => exact .inr rfl
      | _ => cases hp
  · intro h
    match r with
    | one x | many [] | many [x] => cases c <;> exact ⟨_, rfl⟩
    | many (x :: y :: rest) =>
      have hlength : 2 ≤ (x :: y :: rest).length := by simp
      rcases h _ rfl hlength with rfl | rfl <;> exact ⟨_, rfl⟩

end RightSide

/-- A leaf can be built unless its value is a list of two or more for a condition that takes none. -/
theorem Leaf.exists_build_iff {key : String} {c : Condition} {value : Json} {chain : Chain}
    {dateCast : Bool} :
    (∃ l, build key c value chain dateCast = .ok l) ↔
      ∀ items, Operand.decode value = .raw (.array items) → 2 ≤ items.length →
        c = .equals ∨ c = .isIn := by
  have hsettle : (∃ l, build key c value chain dateCast = .ok l) ↔
      ∃ p, RightSide.settle key c (.ofJson value) = .ok p := by
    constructor
    · rintro ⟨l, hl⟩
      obtain ⟨c', r, hs, -⟩ := eq_of_build hl
      exact ⟨_, hs⟩
    · rintro ⟨⟨c', r⟩, hp⟩
      refine ⟨⟨key, c', r, chain, dateCast⟩, ?_⟩
      rw [build, hp]
      rfl
  rw [hsettle, RightSide.exists_settle_iff]
  constructor
  · intro h items hitems hlength
    refine h (items.map Operand.decode) ?_ (by simpa using hlength)
    rw [RightSide.ofJson, hitems]
  · intro h xs hxs hlength
    unfold RightSide.ofJson at hxs
    split at hxs
    · rename_i items hitems
      obtain rfl := RightSide.many.inj hxs
      exact h items hitems (by simpa using hlength)
    · cases hxs

/-! ## Entries -/

namespace Filter

theorem isNodeOf_of_readLeaf {c : Catalog} {fields : Record} {chain : Chain} {l : Leaf}
    (hchain : Names Chain.ofToken? .and (fields.get? "chain") chain)
    (hwhere : fields.get? "where" = none) (h : readLeaf c chain fields = .ok l) :
    IsComparison c fields ∧ IsNodeOf (.object fields) (.leaf l) := by
  obtain ⟨key, hkey, h⟩ := exists_of_bind_ok h
  obtain ⟨condition, hcondition, h⟩ := exists_of_bind_ok h
  obtain ⟨hget, hmem⟩ := readKey_eq_ok_iff.mp hkey
  have hnames := readToken_eq_ok_iff.mp hcondition
  have hlist := Leaf.exists_build_iff.mp ⟨l, h⟩
  exact ⟨⟨⟨key, hget, hmem⟩, condition, hnames, hlist⟩, .leaf hchain hwhere hget hnames h⟩

theorem exists_readLeaf {c : Catalog} {fields : Record} (chain : Chain)
    (h : IsComparison c fields) : ∃ l, readLeaf c chain fields = .ok l := by
  obtain ⟨key, hkey⟩ := h.key
  obtain ⟨condition, hnames, hlist⟩ := h.condition
  obtain ⟨l, hl⟩ : ∃ l, Leaf.build key condition (fields.get "value") chain
      (fields.get "date").isTruthy = .ok l := Leaf.exists_build_iff.mpr hlist
  refine ⟨l, ?_⟩
  rw [readLeaf, readKey_eq_ok_iff.mpr hkey, readCondition, readToken_eq_ok_iff.mpr hnames]
  exact hl

mutual
theorem exists_lists_of_readEntries {c : Catalog} {j : Json} {ns : List Node}
    (h : readEntries c j = .ok ns) : ∃ entries, Lists j entries ∧
      List.Forall₂ (fun e n => IsEntry c e ∧ IsNodeOf e n) entries ns := by
  cases j with
  | array items =>
    rw [readEntries] at h
    exact ⟨items, .many items, forall₂_of_readItems h⟩
  | object fields =>
    rw [readEntries] at h
    obtain ⟨n, hn, rfl⟩ := exists_of_map_ok h
    exact ⟨_, .one fields, .cons (isEntry_of_readEntry hn) .nil⟩
  | _ => simp [readEntries] at h
termination_by sizeOf j
theorem forall₂_of_readItems {c : Catalog} {items : List Json} {ns : List Node}
    (h : readItems c items = .ok ns) :
    List.Forall₂ (fun e n => IsEntry c e ∧ IsNodeOf e n) items ns := by
  match items with
  | [] =>
    rw [readItems] at h
    obtain rfl := Except.ok.inj h
    exact .nil
  | .object fields :: rest =>
    rw [readItems] at h
    obtain ⟨n, hn, h⟩ := exists_of_bind_ok h
    obtain ⟨ns', hns, h⟩ := exists_of_bind_ok h
    obtain rfl := Except.ok.inj h
    exact .cons (isEntry_of_readEntry hn) (forall₂_of_readItems hns)
  | .null :: _ | .bool _ :: _ | .number _ :: _ | .string _ :: _ | .array _ :: _ =>
    simp [readItems] at h
termination_by sizeOf items
theorem isEntry_of_readEntry {c : Catalog} {fields : Record} {n : Node}
    (h : readEntry c fields = .ok n) :
    IsEntry c (.object fields) ∧ IsNodeOf (.object fields) n := by
  cases hw : fields.get? "where" with
  | some list =>
    have hsize := Record.sizeOf_lt_of_get? hw
    rw [readEntry_group c hw] at h
    obtain ⟨chain, hchain, h⟩ := exists_of_bind_ok h
    obtain ⟨ns, hns, rfl⟩ := exists_of_map_ok h
    have hnames := readToken_eq_ok_iff.mp hchain
    obtain ⟨entries, hlist, hrel⟩ := exists_lists_of_readEntries hns
    obtain ⟨hentries, hnodes⟩ := (List.forall₂_and_left entries ns).mp hrel
    exact ⟨.group hnames hw hlist hentries, .group hnames hw hlist hnodes⟩
  | none =>
    rw [readEntry_leaf c hw] at h
    obtain ⟨chain, hchain, h⟩ := exists_of_bind_ok h
    obtain ⟨l, hl, rfl⟩ := exists_of_map_ok h
    have hnames := readToken_eq_ok_iff.mp hchain
    obtain ⟨hcomparison, hnode⟩ := isNodeOf_of_readLeaf hnames hw hl
    exact ⟨.comparison hnames hw hcomparison, hnode⟩
termination_by sizeOf fields
end

theorem exists_readItems {c : Catalog} {items : List Json}
    (h : ∀ e ∈ items, ∃ fields n, e = .object fields ∧ readEntry c fields = .ok n) :
    ∃ ns, readItems c items = .ok ns := by
  induction items with
  | nil => exact ⟨[], by rw [readItems]⟩
  | cons e rest ih =>
    obtain ⟨fields, n, rfl, hn⟩ := h e List.mem_cons_self
    obtain ⟨ns, hns⟩ := ih fun e he => h e (List.mem_cons_of_mem _ he)
    refine ⟨n :: ns, ?_⟩
    rw [readItems, hn, hns]
    rfl

theorem exists_readEntries {c : Catalog} {list : Json} {entries : List Json}
    (hlist : Lists list entries)
    (h : ∀ e ∈ entries, ∃ fields n, e = .object fields ∧ readEntry c fields = .ok n) :
    ∃ ns, readEntries c list = .ok ns := by
  cases hlist with
  | many =>
    rw [readEntries]
    exact exists_readItems h
  | one fields =>
    obtain ⟨fields', n, heq, hn⟩ := h _ List.mem_cons_self
    obtain rfl := Json.object.inj heq
    exact ⟨[n], by rw [readEntries, hn]; rfl⟩

theorem IsEntry.exists_readEntry {c : Catalog} {e : Json} (h : IsEntry c e) :
    ∃ fields n, e = .object fields ∧ readEntry c fields = .ok n := by
  induction h with
  | @group fields chain list entries hchain hwhere hlist _ ih =>
    obtain ⟨ns, hns⟩ := exists_readEntries hlist ih
    refine ⟨fields, .group chain ns, rfl, ?_⟩
    rw [readEntry_group c hwhere, readChain, readToken_eq_ok_iff.mpr hchain, hns]
    rfl
  | @comparison fields chain hchain hwhere h =>
    obtain ⟨l, hl⟩ := exists_readLeaf chain h
    refine ⟨fields, .leaf l, rfl, ?_⟩
    rw [readEntry_leaf c hwhere, readChain, readToken_eq_ok_iff.mpr hchain]
    change (readLeaf c chain fields).map Node.leaf = _
    rw [hl]
    rfl

/-! ## Fields -/

theorem forall₂_of_readFlat {c : Catalog} {fields : Record} {ns : List Node}
    (h : readFlat c fields = .ok ns) :
    List.Forall₂ (fun f n => f.1 ∈ c.names ∧ IsLeafOf f n) fields ns := by
  induction fields generalizing ns with
  | nil =>
    obtain rfl := Except.ok.inj h
    exact .nil
  | cons field rest ih =>
    obtain ⟨_, hc, h⟩ := exists_of_bind_ok h
    obtain ⟨l, hl, h⟩ := exists_of_bind_ok h
    obtain ⟨ns', hns, h⟩ := exists_of_bind_ok h
    obtain rfl := Except.ok.inj h
    exact .cons ⟨checkColumn_eq_ok_iff.mp hc, .leaf hl⟩ (ih hns)

theorem exists_readFlat {c : Catalog} {fields : Record}
    (h : ∀ key ∈ fields.keys, key ∈ c.names) : ∃ ns, readFlat c fields = .ok ns := by
  induction fields with
  | nil => exact ⟨[], rfl⟩
  | cons field rest ih =>
    obtain ⟨key, value⟩ := field
    have hkey : key ∈ c.names := h key List.mem_cons_self
    obtain ⟨l, hl⟩ : ∃ l, Leaf.build key .equals value .and false = .ok l :=
      Leaf.exists_build_iff.mpr fun _ _ _ => .inl rfl
    obtain ⟨ns, hns⟩ := ih fun key hkey => h key (List.mem_cons_of_mem _ hkey)
    refine ⟨.leaf l :: ns, ?_⟩
    rw [readFlat, checkColumn_eq_ok_iff.mpr hkey, hl, hns]
    rfl

theorem read_flat {c : Catalog} {fields : Record} (h : fields.get? "where" = none) :
    read c (.object fields) = readFlat c fields := by
  rw [read, h]

theorem read_structured {c : Catalog} {fields : Record} {list : Json}
    (h : fields.get? "where" = some list) : read c (.object fields) = readEntries c list := by
  rw [read, h]

end Filter

/-! ## Orders -/

namespace Query

theorem exists_readOrderTerm_iff {c : Catalog} {j : Json} :
    (∃ t, readOrderTerm c j = .ok t) ↔ IsOrderTerm c j := by
  constructor
  · rintro ⟨t, h⟩
    unfold readOrderTerm at h
    split at h
    · obtain ⟨_, hc, -⟩ := exists_of_bind_ok h
      exact .name (Filter.checkColumn_eq_ok_iff.mp hc)
    · split at h
      · rename_i hget
        obtain ⟨_, hc, h⟩ := exists_of_bind_ok h
        obtain ⟨direction, hd, -⟩ := exists_of_bind_ok h
        exact .term hget (Filter.checkColumn_eq_ok_iff.mp hc) (Filter.readToken_eq_ok_iff.mp hd)
      · cases h
    · cases h
  · intro h
    cases h with
    | @name key hkey =>
      refine ⟨⟨key, .ascending⟩, ?_⟩
      rw [readOrderTerm, Filter.checkColumn_eq_ok_iff.mpr hkey]
      rfl
    | @term fields key direction hget hkey hdirection =>
      refine ⟨⟨key, direction⟩, ?_⟩
      rw [readOrderTerm, hget]
      dsimp only
      rw [Filter.checkColumn_eq_ok_iff.mpr hkey, readDirection,
        Filter.readToken_eq_ok_iff.mpr hdirection]
      rfl

theorem exists_mapM_iff {ε α β : Type} {f : α → Except ε β} {xs : List α} :
    (∃ ys, xs.mapM f = .ok ys) ↔ ∀ x ∈ xs, ∃ y, f x = .ok y := by
  simp only [mapM_eq_ok_iff]
  induction xs with
  | nil => simp
  | cons x xs ih =>
    rw [List.forall_mem_cons, ← ih]
    simp only [List.forall₂_cons_left_iff]
    constructor
    · rintro ⟨_, y, ys, hy, hys, rfl⟩
      exact ⟨⟨y, hy⟩, ys, hys⟩
    · rintro ⟨⟨y, hy⟩, ys, hys⟩
      exact ⟨_, y, ys, hy, hys, rfl⟩

theorem exists_readOrder_iff {c : Catalog} {field : Option Json} :
    (∃ order, field.elim (.ok []) (readOrder c) = .ok order) ↔ IsOrder c field := by
  constructor
  · rintro ⟨order, h⟩
    cases field with
    | none => exact .absent
    | some j =>
      change readOrder c j = .ok order at h
      unfold readOrder at h
      split at h
      · exact .null
      · have hterms := exists_mapM_iff.mp ⟨order, h⟩
        exact .many fun x hx => exists_readOrderTerm_iff.mp (hterms x hx)
      · obtain ⟨t, ht, -⟩ := exists_of_bind_ok h
        exact .one (exists_readOrderTerm_iff.mp ⟨t, ht⟩)
  · intro h
    cases h with
    | absent => exact ⟨[], rfl⟩
    | null => exact ⟨[], rfl⟩
    | one h =>
      obtain ⟨t, ht⟩ := exists_readOrderTerm_iff.mpr h
      refine ⟨[t], ?_⟩
      cases h with
      | name => exact congrArg (Except.map ([·])) ht
      | term => exact congrArg (Except.map ([·])) ht
    | many h => exact exists_mapM_iff.mpr fun x hx => exists_readOrderTerm_iff.mpr (h x hx)

/-! ## Documents -/

theorem isAccepted_of_read {c : Catalog} {input : Json} {q : Query} (h : read c input = .ok q) :
    IsAccepted c input ∧ Filter.Keeps input q.filter := by
  have hfilter := filter_of_read h
  cases input with
  | object fields =>
    cases hw : Record.get? fields "where" with
    | none =>
      rw [Filter.read_flat hw] at hfilter
      obtain ⟨hkeys, hleaves⟩ := (List.forall₂_and_left fields q.filter).mp
        (Filter.forall₂_of_readFlat hfilter)
      exact ⟨.flat hw (List.forall_mem_map.mpr hkeys), .flat hw hleaves⟩
    | some list =>
      rw [Filter.read_structured hw] at hfilter
      obtain ⟨entries, hlist, hrel⟩ := Filter.exists_lists_of_readEntries hfilter
      obtain ⟨hentries, hnodes⟩ := (List.forall₂_and_left entries q.filter).mp hrel
      have hfield : (Json.object fields).field? "where" = some list := hw
      rw [read_structured hfield] at h
      obtain ⟨filter, -, h⟩ := exists_of_bind_ok h
      obtain ⟨order, horder, -⟩ := exists_of_map_ok h
      exact ⟨.structured hw ⟨entries, hlist, hentries⟩ (exists_readOrder_iff.mp ⟨order, horder⟩),
        .structured hw hlist hnodes⟩
  | _ => cases hfilter

theorem IsAccepted.exists_read {c : Catalog} {input : Json} (h : IsAccepted c input) :
    ∃ q, read c input = .ok q := by
  cases h with
  | @flat fields hw hkeys =>
    obtain ⟨ns, hns⟩ := Filter.exists_readFlat hkeys
    have hfield : (Json.object fields).field? "where" = none := hw
    refine ⟨{ filter := ns }, ?_⟩
    rw [read_flat hfield, Filter.read_flat hw, hns]
    rfl
  | @structured fields list hw hlist horder =>
    obtain ⟨entries, hlist, hentries⟩ := hlist
    obtain ⟨ns, hns⟩ := Filter.exists_readEntries hlist fun e he => (hentries e he).exists_readEntry
    obtain ⟨order, ho⟩ := exists_readOrder_iff.mpr horder
    have hfield : (Json.object fields).field? "where" = some list := hw
    rw [read_structured hfield, Filter.read_structured hw, hns]
    change ∃ q, Except.map _ ((Record.get? fields "order").elim (.ok []) (readOrder c)) = .ok q
    rw [ho]
    exact ⟨_, rfl⟩

/-- **Exactly the documents of the language are queries.** Of a query that has been read, every
entry of the document is kept, in its place. -/
theorem read_exact (c : Catalog) (input : Json) :
    ((∃ q, read c input = .ok q) ↔ IsAccepted c input) ∧
      ∀ q, read c input = .ok q → Filter.Keeps input q.filter := by
  refine ⟨⟨?_, IsAccepted.exists_read⟩, fun q hq => (isAccepted_of_read hq).2⟩
  rintro ⟨q, hq⟩
  exact (isAccepted_of_read hq).1

end Query

/-! ## Comparisons with a field `where` -/

/-- Entries with the two alternatives side by side: a comparison may have a field `where` of any
kind. -/
inductive Filter.IsLooseEntry (c : Catalog) : Json → Prop
  | group {fields : Record} {chain : Chain} {list : Json} {entries : List Json}
    (hchain : Names Chain.ofToken? .and (fields.get? "chain") chain)
    (hwhere : fields.get? "where" = some list) (hlist : Lists list entries)
    (h : ∀ e ∈ entries, IsLooseEntry c e) : IsLooseEntry c (.object fields)
  | comparison {fields : Record} {chain : Chain}
    (hchain : Names Chain.ofToken? .and (fields.get? "chain") chain)
    (h : IsComparison c fields) : IsLooseEntry c (.object fields)

namespace Query

/-- The documents that would be queries if either alternative were enough for an entry. -/
inductive IsLooselyAccepted (c : Catalog) : Json → Prop
  | flat {fields : Record} (hwhere : fields.get? "where" = none)
    (h : ∀ key ∈ fields.keys, key ∈ c.names) : IsLooselyAccepted c (.object fields)
  | structured {fields : Record} {list : Json} {entries : List Json}
    (hwhere : fields.get? "where" = some list) (hlist : Filter.Lists list entries)
    (h : ∀ e ∈ entries, Filter.IsLooseEntry c e) (horder : IsOrder c (fields.get? "order")) :
    IsLooselyAccepted c (.object fields)

/-- An entry that has a `where` is read as a group, whatever else it has. -/
theorem read_looselyAccepted :
    let c := Catalog.ofList [⟨"id", .serial, false⟩]
    let entry : Record := [("where", .bool true), ("key", .string "id"), ("value", .string "x")]
    let input := Json.object [("where", .array [.object entry])]
    IsLooselyAccepted c input ∧ read c input = .error .entriesNotList := by
  intro c entry input
  have hcomparison : Filter.IsComparison c entry :=
    ⟨⟨"id", rfl, by decide⟩, .equals, .absent, fun _ _ _ => .inl rfl⟩
  have hentry : Filter.IsLooseEntry c (.object entry) := .comparison .absent hcomparison
  refine ⟨.structured rfl (.many _) (List.forall_mem_singleton.mpr hentry) .absent, ?_⟩
  have hread : Filter.readEntry c entry = .error .entriesNotList := by
    rw [Filter.readEntry_group c rfl, Filter.readEntries]
    · rfl
    · nofun
    · nofun
  rw [read_structured rfl, Filter.read_structured rfl, Filter.readEntries, Filter.readItems, hread]
  rfl

end Query

end SingleTable
