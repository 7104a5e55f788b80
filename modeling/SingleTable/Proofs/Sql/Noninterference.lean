import Mathlib.Data.List.Forall2
import SingleTable.Proofs.Sql.Request

/-! # Values do not reach the text

Two requests that differ in nothing but their values are written alike.

* `Node.Alike`, `Catalog.RecordAlike`: filters and rows of one shape, whatever they compare with or
  hold. A point is written in two parts, so that it must be known which values are points.
* `Config.Request.Alike`: requests for the same statement.
* `Fragment.mask`: what the text of a fragment depends on.
* `Config.statement_alike`: requests of one shape have one text, or are refused alike.
-/

namespace SingleTable
open Sql Sql.Fragment

/-! ## Shapes -/

/-- One operand each, or lists of one length. -/
def RightSide.Alike : RightSide → RightSide → Prop
  | one _, one _ => True
  | many xs, many ys => xs.length = ys.length
  | _, _ => False

/-- Comparisons that differ in their operands only. -/
structure Leaf.Alike (l m : Leaf) : Prop where
  key : l.key = m.key
  condition : l.condition = m.condition
  operand : l.operand.Alike m.operand
  chain : l.chain = m.chain
  dateCast : l.dateCast = m.dateCast

inductive Node.Alike : Node → Node → Prop
  | leaf {l m : Leaf} (h : l.Alike m) : Node.Alike (.leaf l) (.leaf m)
  | group (c : Chain) {ns ms : List Node} (h : List.Forall₂ Node.Alike ns ms) :
    Node.Alike (.group c ns) (.group c ms)

/-- Fields of one name, of which both or none give the parts of a point. -/
structure Catalog.FieldAlike (c : Catalog) (f g : String × Json) : Prop where
  name : f.1 = g.1
  point : c.type? f.1 = some .point → f.2.isObject = g.2.isObject

def Catalog.RecordAlike (c : Catalog) : Record → Record → Prop := List.Forall₂ c.FieldAlike

namespace Config

/-- Requests for one statement that differ in values only. -/
inductive Request.Alike : Request → Request → Prop
  | query {f g : List Node} (q : Query) (h : List.Forall₂ Node.Alike f g) :
    Alike (.query { q with filter := f }) (.query { q with filter := g })
  | select {f g : List Node} (q : Query) (h : List.Forall₂ Node.Alike f g) :
    Alike (.select { q with filter := f }) (.select { q with filter := g })
  | count {f g : List Node} (h : List.Forall₂ Node.Alike f g) : Alike (.count f) (.count g)
  | insert (catalog : Catalog) {rows rows' : List Record} (returning : List String)
    (h : List.Forall₂ catalog.RecordAlike rows rows') :
    Alike (.insert catalog rows returning) (.insert catalog rows' returning)
  | update (catalog : Catalog) {data data' : Record} {f g : List Node} (returning : List String)
    (hdata : catalog.RecordAlike data data') (h : List.Forall₂ Node.Alike f g) :
    Alike (.update catalog data f returning) (.update catalog data' g returning)

end Config

/-! ## Masked fragments -/

namespace Sql

def Token.mask : Token → Token
  | param _ => param .null
  | t => t

namespace Fragment

/-- A fragment in which all values are null. -/
def mask (f : Fragment) : Fragment := f.map Token.mask

@[simp] theorem mask_nil : mask [] = [] := rfl

@[simp] theorem mask_cons (t : Token) (f : Fragment) : mask (t :: f) = t.mask :: mask f := rfl

@[simp] theorem mask_append (f g : Fragment) : mask (f ++ g) = mask f ++ mask g := List.map_append

theorem mask_intercalate (sep : Fragment) (parts : List Fragment) :
    mask (sep.intercalate parts) = (mask sep).intercalate (parts.map mask) := by
  induction parts with
  | nil => rfl
  | cons f parts ih =>
    cases parts with
    | nil => simp
    | cons g parts =>
      simp only [List.map_cons] at ih ⊢
      rw [List.intercalate_cons_cons, List.intercalate_cons_cons, mask_append, mask_append, ih]

@[simp] theorem mask_spaced (parts : List Fragment) :
    mask (spaced parts) = spaced (parts.map mask) := mask_intercalate _ parts

@[simp] theorem mask_listed (parts : List Fragment) :
    mask (listed parts) = listed (parts.map mask) := mask_intercalate _ parts

@[simp] theorem mask_enclosed (f : Fragment) : mask (enclosed f) = enclosed (mask f) := by
  simp [enclosed, Token.mask]

@[simp] theorem mask_call (w : Word) (parts : List Fragment) :
    mask (call w parts) = call w (parts.map mask) := by
  simp [call, Token.mask]

@[simp] theorem mask_tail (f? : Option Fragment) : mask (tail f?) = tail (f?.map mask) := by
  cases f? <;> rfl

@[simp] theorem mask_ended (f : Fragment) : mask (ended f) = ended (mask f) := by
  simp [ended, Token.mask]

@[simp] theorem mask_ofParam {p : Param} (hp : p ≠ .default) : mask (ofParam p) = [.param .null] := by
  cases p <;> first | rfl | exact absurd rfl hp

theorem mask_dated (b : Bool) (f : Fragment) : mask (dated b f) = dated b (mask f) := by
  unfold dated
  split
  · simp
  · rfl

/-- The text shows which places have values, not which values they have. -/
theorem write_mask (d : Dialect) (bound : Nat) (f : Fragment) :
    write d bound (mask f) = write d bound f := by
  induction f generalizing bound with
  | nil => rfl
  | cons t f ih => cases t <;> simp [Token.mask, write, Token.text, Token.param?, ih]

end Fragment

end Sql

/-! ## Parts of one shape -/

namespace Leaf

theorem mask_bound (l : Leaf) {p : Param} (hp : p ≠ .default) :
    mask (l.bound p) = dated l.dateCast [.param .null] := by
  rw [bound, mask_dated, mask_ofParam hp]

theorem mask_column (l : Leaf) : mask l.column = l.column := by
  rw [column, mask_dated]
  rfl

theorem mask_sql_one (key : String) (c : Condition) (x y : Operand) (chain : Chain)
    (dateCast : Bool) :
    mask (sql ⟨key, c, .one x, chain, dateCast⟩) = mask (sql ⟨key, c, .one y, chain, dateCast⟩) := by
  cases c <;>
    simp [sql, column, mask_bound, mask_dated, x.toParam_ne_default, y.toParam_ne_default,
      x.likeParam_ne_default, y.likeParam_ne_default]

/-- A list shows how long it is and nothing else. -/
theorem mask_membership (l : Leaf) (xs : List Operand) :
    mask (spaced [l.column, [.operator .isIn],
        enclosed (listed (xs.map fun x => l.bound x.toParam))]) =
      spaced [l.column, [.operator .isIn],
        enclosed (listed (List.replicate xs.length (dated l.dateCast [.param .null])))] := by
  have hitems : (xs.map fun x => l.bound x.toParam).map mask =
      List.replicate xs.length (dated l.dateCast [.param .null]) := by
    rw [List.map_map, ← List.map_const']
    exact List.map_congr_left fun x _ => l.mask_bound x.toParam_ne_default
  simp only [mask_spaced, List.map_cons, List.map_nil, mask_enclosed, mask_listed, hitems,
    mask_column, mask_cons, mask_nil, Token.mask]

theorem mask_sql_many (key : String) (c : Condition) {xs ys : List Operand}
    (h : xs.length = ys.length) (chain : Chain) (dateCast : Bool) :
    mask (sql ⟨key, c, .many xs, chain, dateCast⟩) =
      mask (sql ⟨key, c, .many ys, chain, dateCast⟩) := by
  cases c with
  | isIn =>
    cases xs with
    | nil =>
      obtain rfl := List.length_eq_zero_iff.mp h.symm
      rfl
    | cons x xs =>
      cases ys with
      | nil => cases h
      | cons y ys =>
        refine (mask_membership _ (x :: xs)).trans (.trans ?_ (mask_membership _ (y :: ys)).symm)
        rw [h]
        rfl
  | _ => rfl

theorem mask_sql {l m : Leaf} (h : l.Alike m) : mask l.sql = mask m.sql := by
  obtain ⟨key, c, r, chain, dateCast⟩ := l
  obtain ⟨key', c', r', chain', dateCast'⟩ := m
  obtain ⟨rfl, rfl, hr, rfl, rfl⟩ := h
  cases r with
  | one x =>
    cases r' with
    | one y => exact mask_sql_one key c x y chain dateCast
    | many ys => exact hr.elim
  | many xs =>
    cases r' with
    | one y => exact hr.elim
    | many ys => exact mask_sql_many key c hr chain dateCast

end Leaf

namespace Node

theorem Alike.chain {n m : Node} (h : n.Alike m) : n.chain = m.chain := by
  cases h with
  | leaf h => exact h.chain
  | group c h => rfl

mutual
theorem mask_sql : ∀ {n m : Node}, n.Alike m → mask n.sql = mask m.sql
  | .leaf l, _, .leaf h => by
      rw [Node.sql, Node.sql]
      exact Leaf.mask_sql h
  | .group _ [], _, .group _ .nil => rfl
  | .group _ (n :: ns), _, .group _ (.cons h hs) => by
      rw [Node.sql, Node.sql, mask_enclosed, mask_enclosed, mask_append, mask_append, mask_sql h,
        mask_sqlRest hs]
theorem mask_sqlRest : ∀ {ns ms : List Node}, List.Forall₂ Node.Alike ns ms →
    mask (sqlRest ns) = mask (sqlRest ms)
  | [], _, .nil => rfl
  | n :: ns, _, .cons h hs => by
      rw [sqlRest, sqlRest]
      simp only [mask_cons, mask_append, mask_sql h, mask_sqlRest hs, h.chain]
end

theorem alike_isNull (deleted : String) (chain : Chain) :
    Node.Alike (.leaf (.isNull deleted chain)) (.leaf (.isNull deleted chain)) :=
  .leaf ⟨rfl, rfl, trivial, rfl, rfl⟩

theorem map_chain_eq {ns ms : List Node} (h : List.Forall₂ Node.Alike ns ms) :
    ns.map Node.chain = ms.map Node.chain := by
  induction h with
  | nil => rfl
  | cons h _ ih => rw [List.map_cons, List.map_cons, h.chain, ih]

end Node

theorem mask_whereClause {f g : List Node} (h : List.Forall₂ Node.Alike f g) :
    (whereClause f).map mask = (whereClause g).map mask := by
  cases h with
  | nil => rfl
  | cons h hs => simp [whereClause, condition?, Node.mask_sql h, Node.mask_sqlRest hs]

theorem mask_select (table : String) (q : Query) {f g : List Node}
    (h : List.Forall₂ Node.Alike f g) :
    mask (Sql.select table { q with filter := f }) =
      mask (Sql.select table { q with filter := g }) := by
  simp only [Sql.select, Sql.tail, mask_ended, mask_append, mask_tail, mask_whereClause h]

namespace Catalog

/-- What a value shows is whether it is written as the two parts of a point. -/
theorem mask_bound (c : Catalog) (name : String) (j : Json) :
    mask (c.bound name j) =
      if c.type? name = some .point ∧ j.isObject then call .point [[.param .null], [.param .null]]
      else [.param .null] := by
  split
  · rename_i hp
    obtain ⟨ht, ho⟩ := hp
    cases j with
    | object fields => simp [bound, ht, Param.ofJson_ne_default]
    | _ => cases ho
  · rename_i hp
    unfold bound
    split
    · rename_i ht
      exact absurd ⟨ht, rfl⟩ hp
    · exact mask_ofParam (ColumnType.param_ne_default _ _)
    · exact mask_ofParam (Param.ofJson_ne_default _)

theorem FieldAlike.mask_bound {c : Catalog} {f g : String × Json} (h : c.FieldAlike f g) :
    mask (c.bound f.1 f.2) = mask (c.bound g.1 g.2) := by
  rw [c.mask_bound, c.mask_bound, ← h.name]
  by_cases hp : c.type? f.1 = some .point
  · rw [h.point hp]
  · rw [if_neg (fun h => hp h.1), if_neg (fun h => hp h.1)]

/-- Under one name, alike records have nothing, or alike values. -/
theorem RecordAlike.get? {c : Catalog} {r s : Record} (h : c.RecordAlike r s) (name : String) :
    Option.Rel (fun j k => c.FieldAlike (name, j) (name, k)) (Record.get? r name)
      (Record.get? s name) := by
  induction h with
  | nil => exact .none
  | @cons f g r s hf _ ih =>
    obtain ⟨key, j⟩ := f
    obtain ⟨key', k⟩ := g
    obtain rfl : key = key' := hf.name
    unfold Record.get? at ih ⊢
    rw [List.lookup_cons, List.lookup_cons]
    cases hk : name == key with
    | false => exact ih
    | true =>
      rw [beq_iff_eq] at hk
      exact hk ▸ .some hf

theorem RecordAlike.contains_eq {c : Catalog} {r s : Record} (h : c.RecordAlike r s)
    (name : String) : Record.contains r name = Record.contains s name := by
  unfold Record.contains
  have hget := h.get? name
  revert hget
  generalize Record.get? r name = j?, Record.get? s name = k?
  rintro (_ | _) <;> rfl

end Catalog

namespace Config

theorem suppliedColumns_eq {catalog : Catalog} {rows rows' : List Record}
    (h : List.Forall₂ catalog.RecordAlike rows rows') :
    suppliedColumns catalog rows = suppliedColumns catalog rows' := by
  unfold suppliedColumns
  congr 1
  funext name
  induction h with
  | nil => rfl
  | cons hr _ ih => rw [List.any_cons, List.any_cons, hr.contains_eq, ih]

theorem mask_tuple {catalog : Catalog} {r s : Record} (h : catalog.RecordAlike r s)
    (columns : List String) :
    mask (tuple catalog columns r) = mask (tuple catalog columns s) := by
  have hcell : ∀ name, mask (cell catalog r name) = mask (cell catalog s name) := by
    intro name
    unfold cell
    have hget := h.get? name
    revert hget
    generalize Record.get? r name = j?, Record.get? s name = k?
    rintro (hf | _)
    · exact hf.mask_bound
    · rfl
  simp only [tuple, mask_enclosed, mask_listed, List.map_map]
  congr 2
  exact List.map_congr_left fun name _ => hcell name

theorem mask_assignments {catalog : Catalog} {r s : Record} (h : catalog.RecordAlike r s) :
    (r.map (assignment catalog)).map mask = (s.map (assignment catalog)).map mask := by
  induction h with
  | nil => rfl
  | cons hf _ ih =>
    rw [List.map_cons, List.map_cons, List.map_cons, List.map_cons, ih]
    congr 1
    simp only [assignment, mask_spaced, List.map_cons, List.map_nil]
    rw [hf.mask_bound, hf.name]

theorem liveFilter_alike (c : Config) {f g : List Node} (h : List.Forall₂ Node.Alike f g) :
    List.Forall₂ Node.Alike (c.liveFilter f) (c.liveFilter g) := by
  have hany : ∀ ns : List Node, ((ns.drop 1).any fun n => n.chain = .or) =
      (((ns.map Node.chain).drop 1).any fun x => x = .or) := by
    intro ns
    rw [← List.map_drop, List.any_map]
    rfl
  unfold liveFilter
  cases c.softDeleteColumn? with
  | none => exact h
  | some deleted =>
    have hlast := Node.alike_isNull deleted .and
    dsimp only
    rw [hany, hany, Node.map_chain_eq h]
    split
    · exact .cons (.group .and h) (.cons hlast .nil)
    · exact List.rel_append h (.cons hlast .nil)

theorem mask_fragment (c : Config) {r s : Request} (h : r.Alike s) :
    (c.fragment r).map mask = (c.fragment s).map mask := by
  cases h with
  | query q h => exact congrArg Except.ok (mask_select c.table q h)
  | select q h => exact congrArg Except.ok (mask_select c.table q (c.liveFilter_alike h))
  | count h =>
    refine congrArg Except.ok ?_
    simp only [count, mask_ended, mask_append, mask_tail, mask_whereClause (c.liveFilter_alike h)]
  | @insert catalog rows rows' returning h =>
    have hrows : ∀ columns, mask (listed (rows.map (tuple catalog columns))) =
        mask (listed (rows'.map (tuple catalog columns))) := by
      intro columns
      rw [mask_listed, mask_listed]
      congr 1
      induction h with
      | nil => rfl
      | cons hr _ ih =>
        rw [List.map_cons, List.map_cons, List.map_cons, List.map_cons, ih, mask_tuple hr]
    simp only [fragment, insert, suppliedColumns_eq h]
    split
    · rfl
    · refine congrArg Except.ok ?_
      simp only [mask_ended, mask_append, mask_spaced, List.map_cons, hrows]
  | @update catalog data data' f g returning hdata h =>
    have hset : mask (spaced [ofWord .update, ofName c.table, ofWord .assign,
          listed (data.map (assignment catalog))]) =
        mask (spaced [ofWord .update, ofName c.table, ofWord .assign,
          listed (data'.map (assignment catalog))]) := by
      simp only [mask_spaced, List.map_cons, mask_listed, mask_assignments hdata]
    cases hdata with
    | nil => rfl
    | cons hf hr =>
      refine congrArg Except.ok ?_
      simp only [mask_ended, mask_append, mask_tail, mask_whereClause h, hset]

/-- **The text of a statement does not depend on its values.** -/
theorem statement_alike (c : Config) {r s : Request} (h : r.Alike s) :
    (c.statement r).map Command.sql = (c.statement s).map Command.sql := by
  have hf := c.mask_fragment h
  have htext : ∀ t, (c.statement t).map Command.sql =
      ((c.fragment t).map mask).map (write c.dialect 0) := by
    intro t
    rw [statement_eq_map]
    cases c.fragment t with
    | error e => rfl
    | ok f => exact congrArg Except.ok (write_mask c.dialect 0 f).symm
  rw [htext, htext, hf]

theorem statement_alike_update :
    let c := Config.ofTable "t" (.ofList [⟨"spot", .point, false⟩, ⟨"note", .string, false⟩])
    let r := Request.update c.columns
      [("spot", .object [("x", .bool true)]), ("note", .string "'; DROP TABLE t; --")]
      [.leaf ⟨"note", .isIn, .many [.text "DEFAULT", .boolean false], .and, true⟩] []
    let s := Request.update c.columns [("spot", .object []), ("note", .null)]
      [.leaf ⟨"note", .isIn, .many [.raw .null, .date none], .and, true⟩] []
    r.Alike s ∧ (c.statement r).map Command.sql = (c.statement s).map Command.sql := by
  intro c r s
  have hdata : c.columns.RecordAlike
      [("spot", .object [("x", .bool true)]), ("note", .string "'; DROP TABLE t; --")]
      [("spot", .object []), ("note", .null)] :=
    .cons ⟨rfl, fun _ => rfl⟩ (.cons ⟨rfl, fun _ => rfl⟩ .nil)
  have h : r.Alike s :=
    .update c.columns [] hdata (.cons (.leaf ⟨rfl, rfl, rfl, rfl, rfl⟩) .nil)
  exact ⟨h, c.statement_alike h⟩

end Config

end SingleTable
