import SingleTable.Query

/-! # The form of filters that have been read

* `Node.All`: what holds of every leaf of a node, at any depth.
* `Filter.all_of_read`: every leaf of a filter that has been read was built for a column.
* `Leaf.IsSettled`: lists stand on the right side of membership and nowhere else.
-/

namespace SingleTable

/-! ## Leaves of a tree -/

/-- `P` of every leaf of a node. -/
inductive Node.All (P : Leaf → Prop) : Node → Prop
  | leaf {l : Leaf} (h : P l) : Node.All P (.leaf l)
  | group (c : Chain) {ns : List Node} (h : ∀ n ∈ ns, Node.All P n) : Node.All P (.group c ns)

theorem Node.All.mono {P Q : Leaf → Prop} (hPQ : ∀ l, P l → Q l) {n : Node} (h : n.All P) :
    n.All Q := by
  induction h with
  | leaf h => exact .leaf (hPQ _ h)
  | group c _ ih => exact .group c ih

/-! ## Leaves that have been built -/

/-- A list on the right side of membership, one operand on the right side of all else. -/
def RightSide.Suits (c : Condition) : RightSide → Prop
  | one _ => c ≠ .isIn
  | many _ => c = .isIn

def Leaf.IsSettled (l : Leaf) : Prop := l.operand.Suits l.condition

/-- A leaf for a column that was built from the parts of an entry. -/
def Leaf.IsBuilt (c : Catalog) (l : Leaf) : Prop :=
  l.key ∈ c.names ∧ ∃ condition value, build l.key condition value l.chain l.dateCast = .ok l

theorem RightSide.suits_of_settle {key : String} {c c' : Condition} {r r' : RightSide}
    (h : settle key c r = .ok (c', r')) : r'.Suits c' := by
  unfold settle at h
  cases c with
  | isIn => cases r <;> cases h <;> rfl
  | equals =>
    generalize r.fit _ = s at h
    cases s <;> cases h
    · dsimp only [Suits]
      split <;> nofun
    · rfl
  | notEquals =>
    generalize r.fit _ = s at h
    cases s <;> cases h
    dsimp only [Suits]
    split <;> nofun
  | _ =>
    generalize r.fit _ = s at h
    cases s <;> cases h
    nofun

theorem Leaf.eq_of_build {key : String} {condition : Condition} {value : Json} {chain : Chain}
    {dateCast : Bool} {l : Leaf} (h : build key condition value chain dateCast = .ok l) :
    ∃ c r, RightSide.settle key condition (.ofJson value) = .ok (c, r) ∧
      l = ⟨key, c, r, chain, dateCast⟩ := by
  obtain ⟨⟨c, r⟩, hs, hl⟩ := exists_of_bind_ok h
  exact ⟨c, r, hs, (Except.ok.inj hl).symm⟩

theorem Leaf.isBuilt_of_build {c : Catalog} {key : String} {condition : Condition} {value : Json}
    {chain : Chain} {dateCast : Bool} {l : Leaf} (hkey : c.contains key = true)
    (h : build key condition value chain dateCast = .ok l) : l.IsBuilt c := by
  obtain ⟨c', r, hs, rfl⟩ := eq_of_build h
  exact ⟨Catalog.contains_iff_mem_names.mp hkey, condition, value, h⟩

theorem Leaf.IsBuilt.isSettled {c : Catalog} {l : Leaf} (h : l.IsBuilt c) : l.IsSettled := by
  obtain ⟨-, condition, value, hb⟩ := h
  obtain ⟨c', r, hs, hl⟩ := eq_of_build hb
  rw [hl]
  exact RightSide.suits_of_settle hs

/-! ## Reading -/

namespace Filter

theorem contains_of_checkColumn {c : Catalog} {key : String} (h : checkColumn c key = .ok ()) :
    c.contains key = true := by
  unfold checkColumn at h
  split at h
  · assumption
  · cases h

theorem contains_of_readKey {c : Catalog} {fields : Record} {key : String}
    (h : readKey c fields = .ok key) : c.contains key = true := by
  unfold readKey at h
  split at h
  · obtain ⟨_, hc, h⟩ := exists_of_bind_ok h
    obtain rfl := Except.ok.inj h
    exact contains_of_checkColumn hc
  · cases h

theorem isBuilt_of_readLeaf {c : Catalog} {chain : Chain} {fields : Record} {l : Leaf}
    (h : readLeaf c chain fields = .ok l) : l.IsBuilt c := by
  obtain ⟨key, hk, h⟩ := exists_of_bind_ok h
  obtain ⟨condition, -, h⟩ := exists_of_bind_ok h
  exact Leaf.isBuilt_of_build (contains_of_readKey hk) h

/-- An entry without entries of its own is a comparison. -/
theorem readEntry_leaf (c : Catalog) {fields : Record} (h : fields.get? "where" = none) :
    readEntry c fields =
      readChain fields >>= fun chain => (readLeaf c chain fields).map .leaf := by
  rw [readEntry]
  congr 1
  funext chain
  split
  · rename_i hw
    cases hw.symm.trans h
  · rfl

theorem readEntry_group (c : Catalog) {fields : Record} {entries : Json}
    (h : fields.get? "where" = some entries) :
    readEntry c fields =
      readChain fields >>= fun chain => (readEntries c entries).map (.group chain) := by
  rw [readEntry]
  congr 1
  funext chain
  split
  · rename_i hw
    rw [Option.some.inj (hw.symm.trans h)]
  · rename_i hw
    cases hw.symm.trans h

mutual
theorem all_of_readEntries {c : Catalog} {j : Json} {ns : List Node}
    (h : readEntries c j = .ok ns) : ∀ n ∈ ns, n.All (Leaf.IsBuilt c) := by
  cases j with
  | array items =>
    rw [readEntries] at h
    exact all_of_readItems h
  | object fields =>
    rw [readEntries] at h
    obtain ⟨n, hn, rfl⟩ := exists_of_map_ok h
    simpa using all_of_readEntry hn
  | _ => simp [readEntries] at h
termination_by sizeOf j
theorem all_of_readItems {c : Catalog} {items : List Json} {ns : List Node}
    (h : readItems c items = .ok ns) : ∀ n ∈ ns, n.All (Leaf.IsBuilt c) := by
  match items with
  | [] =>
    rw [readItems] at h
    obtain rfl := Except.ok.inj h
    exact nofun
  | .object fields :: rest =>
    rw [readItems] at h
    obtain ⟨n, hn, h⟩ := exists_of_bind_ok h
    obtain ⟨ns', hns, h⟩ := exists_of_bind_ok h
    obtain rfl := Except.ok.inj h
    exact List.forall_mem_cons.mpr ⟨all_of_readEntry hn, all_of_readItems hns⟩
  | .null :: _ | .bool _ :: _ | .number _ :: _ | .string _ :: _ | .array _ :: _ =>
    simp [readItems] at h
termination_by sizeOf items
theorem all_of_readEntry {c : Catalog} {fields : Record} {n : Node}
    (h : readEntry c fields = .ok n) : n.All (Leaf.IsBuilt c) := by
  cases hw : fields.get? "where" with
  | some entries =>
    have hsize := Record.sizeOf_lt_of_get? hw
    rw [readEntry_group c hw] at h
    obtain ⟨chain, -, h⟩ := exists_of_bind_ok h
    obtain ⟨ns, hns, rfl⟩ := exists_of_map_ok h
    exact .group chain (all_of_readEntries hns)
  | none =>
    rw [readEntry_leaf c hw] at h
    obtain ⟨chain, -, h⟩ := exists_of_bind_ok h
    obtain ⟨l, hl, rfl⟩ := exists_of_map_ok h
    exact .leaf (isBuilt_of_readLeaf hl)
termination_by sizeOf fields
end

theorem all_of_readFlat {c : Catalog} {fields : Record} {ns : List Node}
    (h : readFlat c fields = .ok ns) : ∀ n ∈ ns, n.All (Leaf.IsBuilt c) := by
  induction fields generalizing ns with
  | nil =>
    obtain rfl := Except.ok.inj h
    exact nofun
  | cons field rest ih =>
    obtain ⟨_, hc, h⟩ := exists_of_bind_ok h
    obtain ⟨l, hl, h⟩ := exists_of_bind_ok h
    obtain ⟨ns', hns, h⟩ := exists_of_bind_ok h
    obtain rfl := Except.ok.inj h
    have hleaf := Leaf.isBuilt_of_build (contains_of_checkColumn hc) hl
    exact List.forall_mem_cons.mpr ⟨.leaf hleaf, ih hns⟩

/-- Every leaf of a filter that has been read was built for a column. -/
theorem all_of_read {c : Catalog} {input : Json} {ns : List Node} (h : read c input = .ok ns) :
    ∀ n ∈ ns, n.All (Leaf.IsBuilt c) := by
  cases input with
  | object fields =>
    unfold read at h
    dsimp only at h
    split at h
    · exact all_of_readEntries h
    · exact all_of_readFlat h
  | _ => cases h

end Filter

theorem Query.filter_of_read {c : Catalog} {input : Json} {q : Query} (h : read c input = .ok q) :
    Filter.read c input = .ok q.filter := by
  obtain ⟨filter, hf, h⟩ := exists_of_bind_ok h
  rw [hf]
  split at h
  · obtain rfl := Except.ok.inj h
    rfl
  · dsimp only at h
    split at h
    all_goals
      obtain ⟨order, -, h⟩ := exists_of_bind_ok h
      obtain rfl := Except.ok.inj h
      rfl

end SingleTable
