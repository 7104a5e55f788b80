import SingleTable.Proofs.Rows.Ordering

/-! # Sorted rows and their pages

Rows that hold values of one kind under each key of a query, numbers, texts or truth values, come out
of it sorted: numbers by value as far as their nearest doubles tell them apart, texts by code point,
and null where the dialect puts it.

* `Json.Precedes`, `Rows.Before`: the order that is asked for, on values and on rows.
* `Rows.IsSortable`: values of one kind under a key.
* `Rows.compare_eq_lt_iff`: on such rows the comparison of the sort is this order.
* `Rows.flatMap_page`: the pages of a list of rows are the list.
* `Query.apply_pages`: what a query selects, sorts and hands out in pages.
-/

namespace SingleTable

/-! ## The order that is asked for -/

/-- Null stands before all other values in one dialect and after them in the other. -/
inductive Json.Precedes : Dialect → Json → Json → Prop
  | nullFirst {j : Json} (hj : j ≠ .null) : Precedes .mysql .null j
  | nullLast {j : Json} (hj : j ≠ .null) : Precedes .postgres j .null
  | number {d : Dialect} {m n : Number} (h : m.toRat < n.toRat) : Precedes d (.number m) (.number n)
  | string {d : Dialect} {s t : String} (h : s < t) : Precedes d (.string s) (.string t)
  | bool {d : Dialect} : Precedes d (.bool false) (.bool true)

theorem Json.not_precedes_self {d : Dialect} {j : Json} : ¬ j.Precedes d j := by
  intro h
  cases h with
  | nullFirst hj => exact hj rfl
  | nullLast hj => exact hj rfl
  | number h => exact lt_irrefl _ h
  | string h => exact lt_irrefl _ h

/-- Nulls included, a descending term asks for the reverse. -/
def OrderTerm.Precedes (d : Dialect) (t : OrderTerm) (r s : Record) : Prop :=
  match t.direction with
  | .ascending => (r.get t.key).Precedes d (s.get t.key)
  | .descending => (s.get t.key).Precedes d (r.get t.key)

namespace Rows
open Json

/-- The first term that tells two rows apart puts one of them before the other. -/
inductive Before (d : Dialect) : List OrderTerm → Record → Record → Prop
  | now {t : OrderTerm} {order : List OrderTerm} {r s : Record} (h : t.Precedes d r s) :
      Before d (t :: order) r s
  | later {t : OrderTerm} {order : List OrderTerm} {r s : Record} (hrs : ¬ t.Precedes d r s)
      (hsr : ¬ t.Precedes d s r) (h : Before d order r s) : Before d (t :: order) r s

theorem not_before_self {d : Dialect} {order : List OrderTerm} {r : Record} :
    ¬ Before d order r r := by
  induction order with
  | nil => intro h; cases h
  | cons t order ih =>
    have hirrefl : ¬ t.Precedes d r r := by
      unfold OrderTerm.Precedes
      cases t.direction <;> exact not_precedes_self
    intro h
    cases h with
    | now h => exact hirrefl h
    | later _ _ h => exact ih h

/-- Rows whose values under a key, nulls aside, are all numbers, all texts or all truth values. No
two different numbers among them have the same nearest double. -/
inductive IsSortable (key : String) (rows : List Record) : Prop
  | numbers (h : ∀ r ∈ rows, r.get key = .null ∨ ∃ n : Number, r.get key = .number n ∧ n.IsFinite)
      (hdistinct : ∀ r ∈ rows, ∀ s ∈ rows, ∀ m n, r.get key = .number m → s.get key = .number n →
        m.toDouble.compare? n.toDouble = some .eq → m.toRat = n.toRat)
  | strings (h : ∀ r ∈ rows, r.get key = .null ∨ ∃ s, r.get key = .string s)
  | bools (h : ∀ r ∈ rows, r.get key = .null ∨ ∃ b, r.get key = .bool b)

variable {d : Dialect} {key : String} {rows : List Record}

theorem IsSortable.of_subset {part : List Record} (h : IsSortable key rows)
    (hpart : ∀ r ∈ part, r ∈ rows) : IsSortable key part := by
  cases h with
  | numbers h hdistinct =>
    exact .numbers (fun r hr => h r (hpart r hr)) fun r hr s hs =>
      hdistinct r (hpart r hr) s (hpart s hs)
  | strings h => exact .strings fun r hr => h r (hpart r hr)
  | bools h => exact .bools fun r hr => h r (hpart r hr)

/-- Numbers that are doubles themselves, such as integers up to `2⁵³` in size, can be sorted. -/
theorem isSortable_of_isExact (h : ∀ r ∈ rows, r.get key = .null ∨
    ∃ n : Number, r.get key = .number n ∧ n.IsFinite ∧ n.IsExact) : IsSortable key rows := by
  have hexact : ∀ r ∈ rows, ∀ n, r.get key = .number n → n.IsExact := by
    intro r hr n hn
    obtain ⟨m, hm, -, hexact⟩ := (h r hr).resolve_left (by rw [hn]; exact Json.noConfusion)
    cases hm.symm.trans hn
    exact hexact
  refine .numbers (fun r hr => ?_) fun r hr s hs m n hm hn heq => ?_
  · exact (h r hr).imp_right fun ⟨n, hn, hfinite, _⟩ => ⟨n, hn, hfinite⟩
  · exact Number.toRat_eq_of_position_eq (hexact r hr m hm) (hexact s hs n hn)
      (Double.position_eq_of_compare?_eq heq)

theorem IsSortable.isUniform (h : IsSortable key rows) : IsUniform key rows := by
  cases h with
  | numbers h hdistinct =>
    refine .sizes fun r hr => ?_
    rcases h r hr with hnull | ⟨n, hn, hfinite⟩
    · rw [hnull]
      trivial
    · rw [hn]
      exact hfinite
  | strings h =>
    refine .texts (fun r hr => ?_) fun r hr s hs fs gs hfs hgs hsame => ?_
    · rcases h r hr with hr | ⟨s, hr⟩ <;> rw [hr] <;> rfl
    · rcases h r hr with hr | ⟨s, hr⟩ <;> rw [hr] at hfs <;> cases hfs
  | bools h =>
    refine .sizes fun r hr => ?_
    rcases h r hr with hr | ⟨b, hr⟩ <;> rw [hr] <;> trivial

/-- No object is among the values. -/
theorem IsSortable.isProper (h : IsSortable key rows) {r : Record} (hr : r ∈ rows) :
    (r.get key).IsProper := by
  cases h with
  | numbers h hdistinct => rcases h r hr with hr | ⟨n, hr, -⟩ <;> rw [hr] <;> trivial
  | strings h => rcases h r hr with hr | ⟨s, hr⟩ <;> rw [hr] <;> trivial
  | bools h => rcases h r hr with hr | ⟨b, hr⟩ <;> rw [hr] <;> trivial

/-! ## The comparison of two rows -/

theorem ascending_null_eq_lt_iff {a b : Json} (h : a = .null ∨ b = .null) :
    ascending d a b = .lt ↔ a.Precedes d b := by
  constructor
  · intro hlt
    by_cases ha : a = .null
    · subst ha
      cases b <;> cases d <;> first | exact .nullFirst Json.noConfusion | cases hlt
    · obtain rfl : b = .null := h.resolve_left ha
      cases a <;> cases d <;> first | exact .nullLast Json.noConfusion | cases hlt
  · intro hp
    cases hp with
    | nullFirst hj => cases b <;> first | rfl | exact absurd rfl hj
    | nullLast hj => cases a <;> first | rfl | exact absurd rfl hj
    | number _ => simp at h
    | string _ => simp at h
    | bool => simp at h

theorem ascending_number_eq_lt_iff {m n : Number} (hm : m.IsFinite) (hn : n.IsFinite)
    (hdistinct : m.toDouble.compare? n.toDouble = some .eq → m.toRat = n.toRat) :
    ascending d (.number m) (.number n) = .lt ↔ m.toRat < n.toRat := by
  have hcompare : m.toDouble.compare? n.toDouble =
      some (Ord.compare m.toDouble.position n.toDouble.position) :=
    compareNumbers?_of_isSized (a := .number m) (b := .number n) hm hn Json.noConfusion
      Json.noConfusion
  rw [ascending_of_isNumeral Json.noConfusion Json.noConfusion (.inl rfl)]
  change (m.toDouble.compare? n.toDouble).getD _ = Ordering.lt ↔ _
  rw [hcompare] at hdistinct ⊢
  rw [Option.getD_some, Int.compare_eq_lt]
  refine ⟨Number.toRat_lt_of_position_lt hm hn, fun hlt => ?_⟩
  by_contra hle
  rcases (not_lt.mp hle).lt_or_eq with hgt | heq
  · exact (Number.toRat_lt_of_position_lt hn hm hgt).not_gt hlt
  · exact hlt.ne (hdistinct (congrArg some (Int.compare_eq_eq.mpr heq.symm)))

theorem ascending_string_eq_lt_iff {s t : String} :
    ascending d (.string s) (.string t) = .lt ↔ s < t := by
  change Text.compare s t = .lt ↔ _
  rw [Text.compare_eq_compare, compare_lt_iff_lt]

theorem ascending_eq_lt_iff (h : IsSortable key rows) {r s : Record} (hr : r ∈ rows)
    (hs : s ∈ rows) :
    ascending d (r.get key) (s.get key) = .lt ↔ (r.get key).Precedes d (s.get key) := by
  by_cases hnull : r.get key = .null ∨ s.get key = .null
  · exact ascending_null_eq_lt_iff hnull
  obtain ⟨hr', hs'⟩ := not_or.mp hnull
  cases h with
  | numbers h hdistinct =>
    obtain ⟨m, hm, hmfinite⟩ := (h r hr).resolve_left hr'
    obtain ⟨n, hn, hnfinite⟩ := (h s hs).resolve_left hs'
    rw [hm, hn, ascending_number_eq_lt_iff hmfinite hnfinite (hdistinct r hr s hs m n hm hn)]
    exact ⟨.number, fun hp => by cases hp; assumption⟩
  | strings h =>
    obtain ⟨x, hx⟩ := (h r hr).resolve_left hr'
    obtain ⟨y, hy⟩ := (h s hs).resolve_left hs'
    rw [hx, hy, ascending_string_eq_lt_iff]
    exact ⟨.string, fun hp => by cases hp; assumption⟩
  | bools h =>
    obtain ⟨x, hx⟩ := (h r hr).resolve_left hr'
    obtain ⟨y, hy⟩ := (h s hs).resolve_left hs'
    rw [hx, hy]
    refine ⟨fun hlt => ?_, fun hp => ?_⟩
    · cases x <;> cases y <;> first | exact .bool | cases hlt
    · cases hp
      rfl

theorem compareBy_eq_lt_iff {t : OrderTerm} (h : IsSortable t.key rows) {r s : Record}
    (hr : r ∈ rows) (hs : s ∈ rows) : compareBy d t r s = .lt ↔ t.Precedes d r s := by
  have hswap := ascending_swap (d := d) (h.isProper hs) (h.isProper hr)
  unfold compareBy OrderTerm.Precedes
  cases t.direction with
  | ascending => exact ascending_eq_lt_iff h hr hs
  | descending =>
    dsimp only
    rw [hswap, Ordering.swap_swap]
    exact ascending_eq_lt_iff h hs hr

theorem compareBy_eq_gt_iff {t : OrderTerm} (h : IsSortable t.key rows) {r s : Record}
    (hr : r ∈ rows) (hs : s ∈ rows) : compareBy d t r s = .gt ↔ t.Precedes d s r := by
  rw [← compareBy_eq_lt_iff h hs hr, compareBy_swap d (h.isProper hr) (h.isProper hs),
    Ordering.swap_eq_lt]

theorem before_cons_iff {t : OrderTerm} {order : List OrderTerm} {r s : Record} :
    Before d (t :: order) r s ↔
      t.Precedes d r s ∨ ¬ t.Precedes d r s ∧ ¬ t.Precedes d s r ∧ Before d order r s := by
  constructor
  · intro h
    cases h with
    | now h => exact .inl h
    | later hrs hsr h => exact .inr ⟨hrs, hsr, h⟩
  · rintro (h | ⟨hrs, hsr, h⟩)
    · exact .now h
    · exact .later hrs hsr h

theorem compare_eq_lt_iff {order : List OrderTerm} (h : ∀ t ∈ order, IsSortable t.key rows)
    {r s : Record} (hr : r ∈ rows) (hs : s ∈ rows) :
    compare d order r s = .lt ↔ Before d order r s := by
  induction order with
  | nil =>
    constructor
    · intro hlt
      cases hlt
    · intro hb
      cases hb
  | cons t order ih =>
    have ht := h t List.mem_cons_self
    have heq : compareBy d t r s = .eq ↔ ¬ t.Precedes d r s ∧ ¬ t.Precedes d s r := by
      rw [← compareBy_eq_lt_iff ht hr hs, ← compareBy_eq_gt_iff ht hr hs]
      cases compareBy d t r s <;> simp
    rw [compare_cons, Ordering.then_eq_lt, compareBy_eq_lt_iff ht hr hs, heq,
      ih fun u hu => h u (List.mem_cons_of_mem t hu), before_cons_iff, and_assoc]

theorem compare_ne_gt_iff {order : List OrderTerm} (h : ∀ t ∈ order, IsSortable t.key rows)
    {r s : Record} (hr : r ∈ rows) (hs : s ∈ rows) :
    compare d order r s ≠ .gt ↔ ¬ Before d order s r := by
  rw [← compare_eq_lt_iff h hs hr,
    compare_swap d fun t ht => ⟨(h t ht).isProper hr, (h t ht).isProper hs⟩, Ordering.swap_eq_lt]

/-! ## The sort -/

theorem sort_perm (d : Dialect) (order : List OrderTerm) (rows : List Record) :
    (sort d order rows).Perm rows := by
  cases order with
  | nil => exact .refl rows
  | cons t order => exact List.mergeSort_perm rows _

/-- The comparison is only known to be an order on the rows that are sorted. -/
theorem sort_eq_map (d : Dialect) (t : OrderTerm) (order : List OrderTerm) (rows : List Record) :
    sort d (t :: order) rows =
      (rows.attach.mergeSort fun r s => compare d (t :: order) r.1 s.1 != .gt).map (·.1) := by
  rw [List.map_mergeSort (s := fun r s => compare d (t :: order) r s != .gt)
    (fun _ _ _ _ => rfl), List.attach_map_subtype_val]
  rfl

section
variable {order : List OrderTerm}
  (htrans : Std.TransCmp fun r s : {r // r ∈ rows} => compare d order r.1 s.1)

include htrans

theorem compare_bne_gt_trans (r s u : {r // r ∈ rows}) (hrs : compare d order r.1 s.1 != .gt)
    (hsu : compare d order s.1 u.1 != .gt) : compare d order r.1 u.1 != .gt :=
  bne_iff_ne.mpr (compare_ne_gt_trans htrans (bne_iff_ne.mp hrs) (bne_iff_ne.mp hsu))

theorem compare_bne_gt_total (r s : {r // r ∈ rows}) :
    (compare d order r.1 s.1 != .gt || compare d order s.1 r.1 != .gt) = true := by
  have hswap : compare d order s.1 r.1 = (compare d order r.1 s.1).swap := htrans.eq_swap
  rw [hswap]
  cases compare d order r.1 s.1 <;> rfl

theorem pairwise_sort : (sort d order rows).Pairwise fun r s => compare d order r s ≠ .gt := by
  cases order with
  | nil => exact List.pairwise_of_forall fun _ _ => Ordering.noConfusion
  | cons t order =>
    rw [sort_eq_map, List.pairwise_map]
    exact (List.pairwise_mergeSort (compare_bne_gt_trans htrans) (compare_bne_gt_total htrans) _).imp
      bne_iff_ne.mp

/-- Rows that stand in order already keep their order: the sort is stable. -/
theorem sublist_sort {kept : List Record} (hkept : kept.Sublist rows)
    (hpairwise : kept.Pairwise fun r s => compare d order r s ≠ .gt) :
    kept.Sublist (sort d order rows) := by
  cases order with
  | nil => exact hkept
  | cons t order =>
    rw [← List.attach_map_subtype_val rows, List.sublist_map_iff] at hkept
    obtain ⟨kept, hkept, rfl⟩ := hkept
    rw [sort_eq_map]
    refine List.Sublist.map _ (List.sublist_mergeSort (compare_bne_gt_trans htrans)
      (compare_bne_gt_total htrans) ?_ hkept)
    exact (List.pairwise_map.mp hpairwise).imp bne_iff_ne.mpr

end

theorem mem_sort {order : List OrderTerm} {r : Record} : r ∈ sort d order rows ↔ r ∈ rows :=
  (sort_perm d order rows).mem_iff

/-- No row stands before the first one of the sorted rows. -/
theorem not_before_head {order : List OrderTerm} (h : ∀ t ∈ order, IsSortable t.key rows)
    {r : Record} (hr : (sort d order rows).head? = some r) {s : Record} (hs : s ∈ rows) :
    ¬ Before d order s r := by
  have hpairwise := pairwise_sort (transCmp_compare d fun t ht => (h t ht).isUniform)
  obtain ⟨rest, hrest⟩ := List.head?_eq_some_iff.mp hr
  have hmem : r ∈ rows := mem_sort.mp (hrest ▸ List.mem_cons_self)
  have hs' : s ∈ r :: rest := hrest ▸ mem_sort.mpr hs
  rw [hrest, List.pairwise_cons] at hpairwise
  rcases List.mem_cons.mp hs' with rfl | hs'
  · exact not_before_self
  · exact (compare_ne_gt_iff h hmem hs).mp (hpairwise.1 s hs')

/-! ## Pages -/

theorem getElem?_page (m n i : Nat) (rows : List Record) :
    (page (some m) (some n) rows)[i]? = if i < n then rows[m + i]? else none := by
  change ((rows.drop m).take n)[i]? = _
  rw [List.getElem?_take, List.getElem?_drop]

/-- The pages of a list of rows, one behind the other, are the list. -/
theorem flatMap_page (n k : Nat) (rows : List Record) :
    (List.range k).flatMap (fun i => page (some (i * n)) (some n) rows) = rows.take (k * n) := by
  induction k with
  | zero => simp
  | succ k ih =>
    rw [List.range_succ, List.flatMap_append, ih, Nat.succ_mul, List.take_add, List.flatMap_singleton]
    rfl

end Rows

/-! ## What a query selects -/

/-- **A query selects, sorts and hands out pages.** On rows with values of one kind under each key of
its order, a query without a limit selects the rows that satisfy its filter, and no others, in the
order that is asked for; rows that stand in this order already keep theirs, and so do ties. A limit
and an offset cut a page out of this list, and its pages, one behind the other, give it back. -/
theorem Query.apply_pages (d : Dialect) (q : Query) (rows : List Record)
    (h : ∀ t ∈ q.order, Rows.IsSortable t.key rows) :
    let page (offset limit : Option Nat) := { q with offset, limit }.apply d rows
    let whole := page none none
    whole.Perm (rows.filter (Rows.holds q.filter)) ∧
    (whole.Pairwise fun r s => ¬ Rows.Before d q.order s r) ∧
    (∀ kept : List Record, kept.Sublist (rows.filter (Rows.holds q.filter)) →
      (kept.Pairwise fun r s => ¬ Rows.Before d q.order s r) → kept.Sublist whole) ∧
    (∀ m n i, (page (some m) (some n))[i]? = if i < n then whole[m + i]? else none) ∧
    ∀ n k, whole.length ≤ k * n →
      (List.range k).flatMap (fun i => page (some (i * n)) (some n)) = whole := by
  intro page whole
  have hmem : ∀ r ∈ Rows.filter q.filter rows, r ∈ rows := fun r hr => List.mem_of_mem_filter hr
  have hsortable : ∀ t ∈ q.order, Rows.IsSortable t.key (Rows.filter q.filter rows) := fun t ht =>
    (h t ht).of_subset hmem
  have htrans := Rows.transCmp_compare d fun t ht => (hsortable t ht).isUniform
  have hwhole : whole = Rows.sort d q.order (Rows.filter q.filter rows) := List.drop_zero
  have hperm : whole.Perm (Rows.filter q.filter rows) := hwhole ▸ Rows.sort_perm d _ _
  refine ⟨hperm, ?_, fun kept hkept hsorted => ?_, fun m n i => ?_, fun n k hk => ?_⟩
  · have hsorted := Rows.pairwise_sort htrans
    rw [← hwhole] at hsorted
    refine hsorted.imp_of_mem fun hr hs hne => ?_
    exact (Rows.compare_ne_gt_iff hsortable (hperm.mem_iff.mp hr) (hperm.mem_iff.mp hs)).mp hne
  · rw [hwhole]
    refine Rows.sublist_sort htrans hkept (hsorted.imp_of_mem fun hr hs hbefore => ?_)
    exact (Rows.compare_ne_gt_iff hsortable (hkept.subset hr) (hkept.subset hs)).mpr hbefore
  · rw [hwhole]
    exact Rows.getElem?_page m n i _
  · rw [hwhole] at hk ⊢
    exact (Rows.flatMap_page n k _).trans (List.take_of_length_le hk)

theorem Query.apply_pages_mysql :
    let q : Query := { filter := [], order := [⟨"n", .descending⟩, ⟨"t", .ascending⟩] }
    let row (n : Number) (t : String) : Record := [("n", .number n), ("t", .string t)]
    let half := Number.double ⟨0x3fe0000000000000⟩
    let rows := [[("t", .string "a")], row (.int 2) "b", row half "c", row (.int 2) "a"]
    let page (m : Nat) := { q with limit := some 3, offset := some m }.apply .mysql rows
    (∀ t ∈ q.order, Rows.IsSortable t.key rows) ∧
      (q.apply .mysql rows).Perm rows ∧
      [row (.int 2) "b", row half "c"].Sublist (q.apply .mysql rows) ∧
      page 0 ++ page 3 = q.apply .mysql rows := by
  intro q row half rows page
  have hhalf : (⟨0x3fe0000000000000⟩ : Double).isFinite = true := by decide +kernel
  have hsortable : ∀ t ∈ q.order, Rows.IsSortable t.key rows := by
    intro t ht
    rcases List.mem_pair.mp ht with rfl | rfl
    · refine Rows.isSortable_of_isExact fun r hr => ?_
      simp only [rows, List.mem_cons, List.not_mem_nil, or_false] at hr
      rcases hr with rfl | rfl | rfl | rfl
      · exact .inl rfl
      · exact .inr ⟨.int 2, rfl, trivial, Number.isExact_int (by decide)⟩
      · exact .inr ⟨half, rfl, hhalf, Number.isExact_double _⟩
      · exact .inr ⟨.int 2, rfl, trivial, Number.isExact_int (by decide)⟩
    · refine .strings fun r hr => .inr ?_
      simp only [rows, List.mem_cons, List.not_mem_nil, or_false] at hr
      rcases hr with rfl | rfl | rfl | rfl
      exacts [⟨"a", rfl⟩, ⟨"b", rfl⟩, ⟨"c", rfl⟩, ⟨"a", rfl⟩]
  obtain ⟨hperm, -, hstable, -, hpages⟩ := Query.apply_pages .mysql q rows hsortable
  refine ⟨hsortable, hperm, hstable _ ?_ ?_, ?_⟩
  · exact .cons _ (.cons_cons _ (.cons_cons _ (.cons _ .slnil)))
  · have hle : Rows.compare .mysql q.order (row (.int 2) "b") (row half "c") ≠ .gt := by decide +kernel
    have hbefore := (Rows.compare_ne_gt_iff hsortable (by simp [rows]) (by simp [rows])).mp hle
    simpa using hbefore
  · have hlength : (q.apply .mysql rows).length ≤ 2 * 3 := by
      rw [hperm.length_eq]
      decide
    have hpage : page 0 ++ (page 3 ++ []) = q.apply .mysql rows := hpages 3 2 hlength
    rwa [List.append_nil] at hpage

/-- Two long integers that share their nearest double stay as they stand, the greater one first. -/
theorem Query.apply_confused :
    let q : Query := { filter := [], order := [⟨"n", .ascending⟩] }
    let row (n : Int) : Record := [("n", .number (.int n))]
    let rows := [row 9007199254740993, row 9007199254740992]
    q.apply .mysql rows = rows ∧ q.apply .postgres rows = rows ∧
      Rows.Before .mysql q.order (row 9007199254740992) (row 9007199254740993) ∧
      Rows.Before .postgres q.order (row 9007199254740992) (row 9007199254740993) := by
  intro q row rows
  have hsort : ∀ d, q.apply d rows = rows := by
    intro d
    apply List.mergeSort_of_pairwise
    cases d <;> decide +kernel
  have hbefore : ∀ d, Rows.Before d q.order (row 9007199254740992) (row 9007199254740993) :=
    fun d => .now (.number (Int.cast_lt.mpr (by decide)))
  exact ⟨hsort _, hsort _, hbefore _, hbefore _⟩

end SingleTable
