import SingleTable.Payload
import SingleTable.Proofs.Text.Digits

/-! # The language of network addresses

What an address is, apart from how one is read.

* `IsIPv4`: four numbers below 256 in decimal, with dots between.
* `Pieces`, `IsIPv6`: groups of hexadecimal digits with colons between, eight in all, the last two of
  which may be an address of four numbers; or fewer, with two colons once in the place of the others.
* `IsAddress`: either, with its width in bits; `addressWidth?_eq_some_iff`: these are the texts that
  are read as addresses.
* `IsNetwork`: an address alone, or with a slash and a length within its width; `IsSigned`: the same
  with a plus sign in front of the length.
* `cidr_exact`: a network column takes the texts of both kinds, and no others.
-/

namespace SingleTable.Network
open Text

/-! ## Runs of characters -/

/-- The longest run at the head of a text, and what follows it. -/
theorem split_takeWhile (p : Char → Bool) (cs : List Char) :
    cs = cs.takeWhile p ++ cs.drop (cs.takeWhile p).length ∧
      ∀ c ∈ (cs.drop (cs.takeWhile p).length).head?, p c = false := by
  have hdrop : cs.drop (cs.takeWhile p).length = cs.dropWhile p := by
    have h : (cs.takeWhile p ++ cs.dropWhile p).drop (cs.takeWhile p).length = cs.dropWhile p :=
      List.drop_left
    rwa [List.takeWhile_append_dropWhile] at h
  rw [hdrop, List.takeWhile_append_dropWhile]
  refine ⟨rfl, fun c hc => ?_⟩
  have hhead := List.head?_dropWhile_not p cs
  rw [hc] at hhead
  simpa using hhead

/-- What goes on with `x`, or not at all. -/
def Stops (x : Char) (rest : List Char) : Prop := ∀ c ∈ rest.head?, c = x

theorem stops_nil (x : Char) : Stops x [] := by
  rintro c ⟨⟩

theorem stops_cons (x : Char) (rest : List Char) : Stops x (x :: rest) := by
  rintro c ⟨⟩
  rfl

theorem Stops.eq_false {x : Char} {rest : List Char} (h : Stops x rest) {p : Char → Bool}
    (hp : p x = false) : ∀ c ∈ rest.head?, p c = false := by
  intro c hc
  rw [h c hc, hp]

theorem Stops.takeWhile_eq {x : Char} {rest : List Char} (h : Stops x rest) {p : Char → Bool}
    (hp : p x = false) : rest.takeWhile p = [] :=
  (takeWhile_append_of_head (List.forall_mem_nil _) (h.eq_false hp)).1

/-! ## Four numbers -/

theorem octet_eq_some_iff {cs rest : List Char} :
    octet cs = some rest ↔
      ∃ n : Fin 256, cs = decimal n ++ rest ∧ ∀ c ∈ rest.head?, isDigit c = false := by
  have hread : octet cs = some rest ↔
      (((cs.takeWhile isDigit ≠ [] ∧ (cs.takeWhile isDigit).length ≤ 3) ∧
        value (cs.takeWhile isDigit) ≤ 255) ∧
        ((cs.takeWhile isDigit).head? = some '0' → (cs.takeWhile isDigit).length ≤ 1)) ∧
      cs.drop (cs.takeWhile isDigit).length = rest := by
    simp only [octet, Option.ite_none_left_eq_some, Option.some.injEq, Bool.or_eq_true,
      List.isEmpty_iff, decide_eq_true_eq, Bool.and_eq_true, beq_iff_eq, not_or, not_and, Nat.not_lt,
      ne_eq]
  rw [hread]
  constructor
  · rintro ⟨⟨⟨⟨hne, -⟩, hvalue⟩, hzero⟩, rfl⟩
    obtain ⟨hsplit, hrest⟩ := split_takeWhile isDigit cs
    have hdigits : IsDigits (cs.takeWhile isDigit) := ⟨hne, fun c hc => List.mem_takeWhile_imp hc⟩
    have hpos : 0 < (cs.takeWhile isDigit).length := List.length_pos_iff.mpr hne
    have hself := decimal_value hdigits fun h0 => Nat.le_antisymm (hzero h0) hpos
    exact ⟨⟨value (cs.takeWhile isDigit), by omega⟩, by rwa [hself], hrest⟩
  · rintro ⟨n, rfl, hrest⟩
    have hsmall : ∀ n : Fin 256, (decimal n).length ≤ 3 ∧
        ((decimal n).head? = some '0' → (decimal n).length ≤ 1) := by decide +kernel
    obtain ⟨hlength, hzero⟩ := hsmall n
    have htake := (takeWhile_append_of_head
      (fun c hc => isDigit_of_mem_decimal (n := n.val) hc) hrest).1
    rw [htake, value_decimal]
    exact ⟨⟨⟨⟨(isDigits_decimal n).ne_nil, hlength⟩, Nat.le_of_lt_succ n.isLt⟩, hzero⟩,
      List.drop_left⟩

/-- Four numbers with dots between. -/
def dotted (a b c d : Fin 256) : List Char :=
  decimal a ++ '.' :: (decimal b ++ '.' :: (decimal c ++ '.' :: decimal d))

def IsIPv4 (cs : List Char) : Prop := ∃ a b c d : Fin 256, cs = dotted a b c d

theorem ipv4?_eq_some_iff {cs rest : List Char} :
    ipv4? cs = some rest ↔
      ∃ address, IsIPv4 address ∧ cs = address ++ rest ∧ ∀ c ∈ rest.head?, isDigit c = false := by
  simp only [ipv4?, Option.bind_eq_bind, Option.bind_eq_some_iff, octet_eq_some_iff,
    after_eq_some_iff]
  constructor
  · rintro ⟨_, ⟨a, rfl, -⟩, _, rfl, _, ⟨b, rfl, -⟩, _, rfl, _, ⟨c, rfl, -⟩, _, rfl, d, rfl, hrest⟩
    exact ⟨dotted a b c d, ⟨a, b, c, d, rfl⟩, by simp [dotted], hrest⟩
  · rintro ⟨_, ⟨a, b, c, d, rfl⟩, rfl, hrest⟩
    have hdot (cs : List Char) := (stops_cons '.' cs).eq_false (p := isDigit) rfl
    exact ⟨_, ⟨a, by simp [dotted], hdot _⟩, _, rfl, _, ⟨b, rfl, hdot _⟩, _, rfl, _,
      ⟨c, rfl, hdot _⟩, _, rfl, d, rfl, hrest⟩

/-! ## Groups -/

structure IsGroup (ds : List Char) : Prop where
  ne_nil : ds ≠ []
  length_le : ds.length ≤ 4
  isHexDigit : ∀ c ∈ ds, Uuid.isHexDigit c = true

theorem isHexDigit_of_isDigit {c : Char} (h : isDigit c = true) : Uuid.isHexDigit c = true := by
  have hdigit : c.isDigit = true := h
  rw [Uuid.isHexDigit, hdigit, Bool.true_or, Bool.true_or]

theorem group_eq_some_iff {cs rest : List Char} :
    group cs = some rest ↔
      ∃ ds, IsGroup ds ∧ cs = ds ++ rest ∧ ∀ c ∈ rest.head?, Uuid.isHexDigit c = false := by
  have hread : group cs = some rest ↔
      (cs.takeWhile Uuid.isHexDigit ≠ [] ∧ (cs.takeWhile Uuid.isHexDigit).length ≤ 4) ∧
        cs.drop (cs.takeWhile Uuid.isHexDigit).length = rest := by
    simp only [group, Option.ite_none_left_eq_some, Option.some.injEq, Bool.or_eq_true,
      List.isEmpty_iff, decide_eq_true_eq, not_or, Nat.not_lt, ne_eq]
  rw [hread]
  constructor
  · rintro ⟨⟨hne, hlength⟩, rfl⟩
    obtain ⟨hsplit, hrest⟩ := split_takeWhile Uuid.isHexDigit cs
    exact ⟨_, ⟨hne, hlength, fun c hc => List.mem_takeWhile_imp hc⟩, hsplit, hrest⟩
  · rintro ⟨ds, hds, rfl, hrest⟩
    rw [(takeWhile_append_of_head hds.isHexDigit hrest).1]
    exact ⟨⟨hds.ne_nil, hds.length_le⟩, List.drop_left⟩

theorem ipv4?_of_stops {rest : List Char} (h : Stops ':' rest) : ipv4? rest = none := by
  have hrun : rest.takeWhile isDigit = [] := h.takeWhile_eq rfl
  have hnumber : octet rest = none := by simp [octet, hrun]
  rw [ipv4?, hnumber]
  rfl

theorem group_of_stops {rest : List Char} (h : Stops ':' rest) : group rest = none := by
  have hrun : rest.takeWhile Uuid.isHexDigit = [] := h.takeWhile_eq rfl
  simp [group, hrun]

/-- A group is not the first number of four: no dot follows it. -/
theorem ipv4?_group {ds rest : List Char} (h : IsGroup ds) (hrest : Stops ':' rest) :
    ipv4? (ds ++ rest) = none := by
  rw [Option.eq_none_iff_forall_ne_some]
  intro tail hfour
  obtain ⟨_, ⟨a, b, c, d, rfl⟩, htext, -⟩ := ipv4?_eq_some_iff.mp hfour
  rw [dotted, List.append_assoc, List.cons_append] at htext
  have hds := takeWhile_append_of_head h.isHexDigit (hrest.eq_false rfl)
  have ha := takeWhile_append_of_head
    (fun x hx => isHexDigit_of_isDigit (isDigit_of_mem_decimal (n := a.val) hx))
    ((stops_cons '.' (decimal b ++ '.' :: (decimal c ++ '.' :: decimal d) ++ tail)).eq_false rfl)
  rw [← htext] at ha
  have hcolon := hrest '.' (by rw [← hds.2, ha.2]; rfl)
  cases hcolon

/-! ## Pieces -/

/-- Groups, with an address of four numbers at the end or not: how many groups they make, and
whether such an address is among them. -/
inductive Pieces : Nat → Bool → List (List Char) → Prop
  | nil : Pieces 0 false []
  | group {ds : List Char} {n : Nat} {b : Bool} {ps : List (List Char)} (h : IsGroup ds)
      (hps : Pieces n b ps) : Pieces (n + 1) b (ds :: ps)
  | dotted {address : List Char} (h : IsIPv4 address) : Pieces 2 true [address]

/-- Pieces with colons between. -/
def joined (ps : List (List Char)) : List Char := [':'].intercalate ps

/-- Pieces with a colon in front of each. -/
def led (ps : List (List Char)) : List Char := ps.flatMap (':' :: ·)

theorem led_cons (p : List Char) (ps : List (List Char)) : led (p :: ps) = ':' :: joined (p :: ps) := by
  induction ps generalizing p with
  | nil => simp [led, joined]
  | cons p' ps ih =>
    have h : led (p :: p' :: ps) = ':' :: p ++ led (p' :: ps) := rfl
    rw [h, ih, joined, joined, List.intercalate_cons_cons]
    simp

theorem joined_cons (p : List Char) (ps : List (List Char)) : joined (p :: ps) = p ++ led ps := by
  cases ps with
  | nil => simp [joined, led]
  | cons p' ps =>
    rw [led_cons, joined, joined, List.intercalate_cons_cons, List.append_assoc]
    rfl

theorem Stops.led_append {rest : List Char} (h : Stops ':' rest) (ps : List (List Char)) :
    Stops ':' (led ps ++ rest) := by
  cases ps with
  | nil => exact h
  | cons p ps => exact stops_cons ':' _

variable {n limit : Nat} {b : Bool} {cs rest : List Char} {ps : List (List Char)}

theorem Pieces.ne_zero {p : List Char} (h : Pieces n b (p :: ps)) : n ≠ 0 := by
  cases h <;> simp

/-- Behind the first piece, each one is read with the colon in front of it. -/
theorem groups_true (limit : Nat) (cs : List Char) :
    groups true limit cs =
      if (groups false limit (':' :: cs)).1 = 0 then (0, false, cs)
      else groups false limit (':' :: cs) := by
  cases limit with
  | zero => rfl
  | succ limit =>
    have hcolon : separator false (':' :: cs) = separator true cs := rfl
    rw [groups, groups, hcolon]
    split
    · rfl
    · split <;> simp

/-- What is read as groups is pieces: each group lowers the limit, and an address of four numbers ends
the run. -/
theorem pieces_of_groups (h : groups false limit cs = (n, b, rest)) :
    ∃ ps, Pieces n b ps ∧ n ≤ limit ∧ cs = led ps ++ rest := by
  induction limit generalizing cs n with
  | zero =>
    obtain ⟨rfl, rfl, rfl⟩ := h
    exact ⟨[], .nil, Nat.le_refl 0, rfl⟩
  | succ limit ih =>
    rw [groups] at h
    split at h
    · rename_i tail hfour
      obtain ⟨rfl, rfl, rfl⟩ := h
      split at hfour
      · cases hfour
      rename_i hlimit
      obtain ⟨_, hcolon, hfour⟩ := Option.bind_eq_some_iff.mp hfour
      obtain rfl := after_eq_some_iff.mp hcolon
      obtain ⟨address, haddress, rfl, -⟩ := ipv4?_eq_some_iff.mp hfour
      exact ⟨[address], .dotted haddress, by omega, by simp [led]⟩
    split at h
    · rename_i tail hgroup
      obtain ⟨_, hcolon, hgroup⟩ := Option.bind_eq_some_iff.mp hgroup
      obtain rfl := after_eq_some_iff.mp hcolon
      obtain ⟨ds, hds, rfl, -⟩ := group_eq_some_iff.mp hgroup
      cases hmore : groups false limit tail with
      | mk m more =>
        rw [hmore] at h
        obtain ⟨rfl, rfl, rfl⟩ := h
        obtain ⟨ps, hps, hle, rfl⟩ := ih hmore
        exact ⟨ds :: ps, .group hds hps, Nat.succ_le_succ hle, by simp [led]⟩
    · obtain ⟨rfl, rfl, rfl⟩ := h
      exact ⟨[], .nil, Nat.zero_le _, rfl⟩

theorem pieces_of_groups_true (h : groups true limit cs = (n, b, rest)) :
    ∃ ps, Pieces n b ps ∧ n ≤ limit ∧ cs = joined ps ++ rest := by
  rw [groups_true] at h
  split at h
  · obtain ⟨rfl, rfl, rfl⟩ := h
    exact ⟨[], .nil, Nat.zero_le limit, rfl⟩
  · rename_i hn
    rw [h] at hn
    obtain ⟨ps, hps, hle, htext⟩ := pieces_of_groups h
    refine ⟨ps, hps, hle, ?_⟩
    cases ps with
    | nil =>
      cases hps
      exact absurd rfl hn
    | cons p ps =>
      rw [led_cons, List.cons_append] at htext
      exact (List.cons.inj htext).2

theorem groups_of_stops (hrest : Stops ':' rest) :
    groups false limit (':' :: rest) = (0, false, ':' :: rest) := by
  cases limit with
  | zero => rfl
  | succ limit => simp [groups, separator, after, ipv4?_of_stops hrest, group_of_stops hrest]

/-- What ends a run of pieces: the end of the text, or two colons. -/
def Ends (rest : List Char) : Prop := rest = [] ∨ ∃ tail, rest = ':' :: ':' :: tail

theorem Ends.stops (h : Ends rest) : Stops ':' rest := by
  obtain rfl | ⟨tail, rfl⟩ := h
  · exact stops_nil ':'
  · exact stops_cons ':' _

theorem Ends.groups_eq (h : Ends rest) (limit : Nat) : groups false limit rest = (0, false, rest) := by
  obtain rfl | ⟨tail, rfl⟩ := h
  · cases limit <;> simp [groups, separator, after]
  · exact groups_of_stops (stops_cons ':' tail)

/-- Pieces are read as groups, as far as they go. -/
theorem groups_led (h : Pieces n b ps) (hn : n ≤ limit) (hrest : Ends rest) :
    groups false limit (led ps ++ rest) = (n, b, rest) := by
  induction h generalizing limit with
  | nil => exact hrest.groups_eq limit
  | group hds _ ih =>
    rename_i ds n b ps _
    obtain ⟨limit, rfl⟩ := Nat.exists_eq_succ_of_ne_zero (Nat.ne_zero_of_lt hn)
    have htext : led (ds :: ps) ++ rest = ':' :: (ds ++ (led ps ++ rest)) := by simp [led]
    have hstops := hrest.stops.led_append ps
    have hfour := ipv4?_group hds hstops
    have hgroup := group_eq_some_iff.mpr ⟨ds, hds, rfl, hstops.eq_false rfl⟩
    have hcolon : separator false (':' :: (ds ++ (led ps ++ rest))) =
        some (ds ++ (led ps ++ rest)) := rfl
    rw [htext, groups, hcolon, Option.bind_some, Option.bind_some, hfour, hgroup, ite_self]
    simp only [ih (Nat.le_of_succ_le_succ hn)]
  | dotted haddress =>
    rename_i address
    obtain ⟨limit, rfl⟩ := Nat.exists_eq_add_of_le' hn
    have htext : led [address] ++ rest = ':' :: (address ++ rest) := by simp [led]
    have hfour := ipv4?_eq_some_iff.mpr ⟨address, haddress, rfl, hrest.stops.eq_false rfl⟩
    have hcolon : separator false (':' :: (address ++ rest)) = some (address ++ rest) := rfl
    rw [htext, groups, hcolon, Option.bind_some, hfour, if_neg (Nat.succ_ne_zero limit)]

theorem groups_joined (h : Pieces n b ps) (hn : n ≤ limit) (hrest : Ends rest) :
    groups true limit (joined ps ++ rest) = (n, b, rest) := by
  rw [groups_true]
  cases ps with
  | nil =>
    cases h
    rw [joined, List.intercalate_nil, List.nil_append, groups_of_stops hrest.stops]
    rfl
  | cons p ps =>
    have hled := groups_led h hn hrest
    rw [led_cons, List.cons_append] at hled
    rw [hled, if_neg h.ne_zero]

/-! ## Addresses -/

/-- Eight groups, or fewer with two colons in the place of the others. Only the last piece can be an
address of four numbers. -/
inductive IsIPv6 : List Char → Prop
  | whole {b : Bool} {ps : List (List Char)} (h : Pieces 8 b ps) : IsIPv6 (joined ps)
  | shortened {m n : Nat} {b : Bool} {ps ps' : List (List Char)} (h : Pieces m false ps)
      (h' : Pieces n b ps') (hlt : m + n < 8) : IsIPv6 (joined ps ++ ':' :: ':' :: joined ps')

theorem ipv6?_eq_some_nil_iff : ipv6? cs = some [] ↔ IsIPv6 cs := by
  constructor
  · intro h
    rw [ipv6?] at h
    cases hleft : groups true 8 cs with
    | mk m more =>
      obtain ⟨b, rest⟩ := more
      obtain ⟨ps, hps, hle, rfl⟩ := pieces_of_groups_true hleft
      rw [hleft] at h
      dsimp only at h
      split at h
      · rename_i height
        obtain rfl := Option.some.inj h
        subst height
        rw [List.append_nil]
        exact .whole hps
      split at h
      · cases h
      rename_i hb
      obtain rfl : b = false := Bool.eq_false_iff.mpr hb
      obtain ⟨tail, hfirst, hmore⟩ := Option.bind_eq_some_iff.mp h
      obtain rfl := after_eq_some_iff.mp hfirst
      obtain ⟨right, hsecond, hright⟩ := Option.bind_eq_some_iff.mp hmore
      obtain rfl := after_eq_some_iff.mp hsecond
      cases hgroups : groups true (7 - m) right with
      | mk n more =>
        obtain ⟨b, rest⟩ := more
        obtain ⟨ps', hps', hle', rfl⟩ := pieces_of_groups_true hgroups
        rw [hgroups] at hright
        obtain rfl := Option.some.inj hright
        rw [List.append_nil]
        exact .shortened hps hps' (by omega)
  · rintro (⟨hps⟩ | ⟨hps, hps', hlt⟩)
    · rename_i b ps
      have h := groups_joined hps (Nat.le_refl 8) (.inl rfl)
      rw [List.append_nil] at h
      rw [ipv6?, h]
      rfl
    · rename_i m n b ps ps'
      have hm : m ≠ 8 := by omega
      have hle : m ≤ 8 := by omega
      have hle' : n ≤ 7 - m := by omega
      have h := groups_joined hps hle (.inr ⟨joined ps', rfl⟩)
      have h' := groups_joined hps' hle' (.inl rfl)
      rw [List.append_nil] at h'
      rw [ipv6?, h]
      dsimp only
      rw [if_neg hm, if_neg Bool.false_ne_true]
      change some (groups true (7 - m) (joined ps')).2.2 = some []
      rw [h']

/-- Neither kind of address begins with one of the other. -/
theorem ipv4?_joined (h : Pieces n b ps) (hn : n ≠ 2 ∨ b = false) (hrest : Ends rest) :
    ipv4? (joined ps ++ rest) = none := by
  cases h with
  | nil => exact ipv4?_of_stops hrest.stops
  | group hds _ =>
    rw [joined_cons, List.append_assoc]
    exact ipv4?_group hds (hrest.stops.led_append _)
  | dotted _ => simp at hn

theorem IsIPv6.ipv4?_eq (h : IsIPv6 cs) : ipv4? cs = none := by
  cases h with
  | whole hps =>
    rw [← List.append_nil (joined _)]
    exact ipv4?_joined hps (.inl (by decide)) (.inl rfl)
  | shortened hps _ _ => exact ipv4?_joined hps (.inr rfl) (.inr ⟨_, rfl⟩)

/-- A text that is an address, and its width in bits. -/
inductive IsAddress : Nat → List Char → Prop
  | four {cs : List Char} (h : IsIPv4 cs) : IsAddress 32 cs
  | six {cs : List Char} (h : IsIPv6 cs) : IsAddress 128 cs

variable {width : Nat} {address : List Char}

/-- **The texts that are read as addresses are the addresses.** -/
theorem addressWidth?_eq_some_iff : addressWidth? cs = some width ↔ IsAddress width cs := by
  constructor
  · intro h
    unfold addressWidth? at h
    split at h
    · rename_i rest hfour
      split at h
      · rename_i hrest
        obtain rfl := Option.some.inj h
        obtain rfl := List.isEmpty_iff.mp hrest
        obtain ⟨address, haddress, rfl, -⟩ := ipv4?_eq_some_iff.mp hfour
        rw [List.append_nil]
        exact .four haddress
      · cases h
    · split at h
      · rename_i hsix
        obtain rfl := Option.some.inj h
        exact .six (ipv6?_eq_some_nil_iff.mp hsix)
      · cases h
  · rintro (⟨hfour⟩ | ⟨hsix⟩)
    · have h := ipv4?_eq_some_iff.mpr ⟨cs, hfour, (List.append_nil cs).symm,
        (stops_nil ':').eq_false rfl⟩
      rw [addressWidth?, h]
      rfl
    · rw [addressWidth?, hsix.ipv4?_eq]
      exact if_pos (ipv6?_eq_some_nil_iff.mpr hsix)

theorem IsAddress.width_lt (h : IsAddress width cs) : width < 256 := by cases h <;> decide

theorem IsIPv4.slash_notMem (h : IsIPv4 cs) : '/' ∉ cs := by
  obtain ⟨a, b, c, d, rfl⟩ := h
  have hdecimal : ∀ n : Nat, '/' ∉ decimal n := fun n hn =>
    absurd (isDigit_of_mem_decimal hn) Bool.false_ne_true
  simp [dotted, hdecimal]

theorem Pieces.slash_notMem (h : Pieces n b ps) : '/' ∉ led ps := by
  induction h with
  | nil => exact List.not_mem_nil
  | group hds _ ih =>
    rename_i ds _ _ ps _
    have hds' : '/' ∉ ds := fun hmem => absurd (hds.isHexDigit _ hmem) Bool.false_ne_true
    have htext : led (ds :: ps) = ':' :: (ds ++ led ps) := rfl
    simp [htext, hds', ih]
  | dotted haddress => simpa [led] using haddress.slash_notMem

theorem Pieces.slash_notMem_joined (h : Pieces n b ps) : '/' ∉ joined ps := by
  cases ps with
  | nil => exact List.not_mem_nil
  | cons p ps =>
    have hled := h.slash_notMem
    rw [led_cons] at hled
    exact fun hmem => hled (List.mem_cons_of_mem ':' hmem)

theorem IsAddress.slash_notMem (h : IsAddress width cs) : '/' ∉ cs := by
  obtain hfour | hsix := h
  · exact hfour.slash_notMem
  · cases hsix with
    | whole hps => exact hps.slash_notMem_joined
    | shortened hps hps' _ => simp [hps.slash_notMem_joined, hps'.slash_notMem_joined]

/-! ## Networks -/

/-- An address alone, or with a slash and a length within its width. -/
inductive IsNetwork : List Char → Prop
  | alone {width : Nat} {address : List Char} (h : IsAddress width address) : IsNetwork address
  | slash {width : Nat} {address ds : List Char} (h : IsAddress width address) (hds : IsDigits ds)
      (hle : value ds ≤ width) : IsNetwork (address ++ '/' :: ds)

/-- A network with a plus sign in front of its length. -/
inductive IsSigned : List Char → Prop
  | slash {width : Nat} {address ds : List Char} (h : IsAddress width address) (hds : IsDigits ds)
      (hle : value ds ≤ width) : IsSigned (address ++ '/' :: '+' :: ds)

theorem length?_eq_some_iff {limit : Nat} :
    length? cs = some limit ↔
      ∃ ds, IsDigits ds ∧ (cs = ds ∨ cs = '+' :: ds) ∧ value ds = limit ∧ limit < 256 := by
  have hread : ∀ ds : List Char,
      (if ds.isEmpty || !ds.all isDigit || 255 < value ds then none else some (value ds)) = some limit ↔
        IsDigits ds ∧ value ds = limit ∧ limit < 256 := by
    intro ds
    simp only [Option.ite_none_left_eq_some, Option.some.injEq, Bool.or_eq_true, List.isEmpty_iff,
      Bool.not_eq_true', decide_eq_true_eq, not_or, Bool.not_eq_false, List.all_eq_true, Nat.not_lt]
    constructor
    · rintro ⟨⟨⟨hne, hdigit⟩, hle⟩, rfl⟩
      exact ⟨⟨hne, hdigit⟩, rfl, Nat.lt_succ_of_le hle⟩
    · rintro ⟨hds, rfl, hlt⟩
      exact ⟨⟨⟨hds.ne_nil, hds.isDigit⟩, Nat.le_of_lt_succ hlt⟩, rfl⟩
  unfold length?
  dsimp only
  split
  · rename_i ds
    rw [hread]
    constructor
    · rintro ⟨hds, hvalue⟩
      exact ⟨ds, hds, .inr rfl, hvalue⟩
    · rintro ⟨ds', hds', rfl | hsigned, hvalue⟩
      · exact absurd (hds'.isDigit '+' List.mem_cons_self) Bool.false_ne_true
      · obtain rfl := (List.cons.inj hsigned).2
        exact ⟨hds', hvalue⟩
  · rename_i hunsigned
    rw [hread]
    constructor
    · rintro ⟨hds, hvalue⟩
      exact ⟨cs, hds, .inl rfl, hvalue⟩
    · rintro ⟨ds', hds', rfl | hsigned, hvalue⟩
      · exact ⟨hds', hvalue⟩
      · exact absurd hsigned (hunsigned ds')

/-- No width is so large that a length within it could be too long to be read. -/
theorem any_length?_iff (hwidth : width < 256) :
    (length? cs).any (· ≤ width) = true ↔
      ∃ ds, IsDigits ds ∧ (cs = ds ∨ cs = '+' :: ds) ∧ value ds ≤ width := by
  rw [Option.any_eq_true]
  constructor
  · rintro ⟨limit, hlimit, hle⟩
    obtain ⟨ds, hds, hform, rfl, -⟩ := length?_eq_some_iff.mp hlimit
    exact ⟨ds, hds, hform, of_decide_eq_true hle⟩
  · rintro ⟨ds, hds, hform, hle⟩
    exact ⟨value ds, length?_eq_some_iff.mpr ⟨ds, hds, hform, rfl, hle.trans_lt hwidth⟩,
      decide_eq_true hle⟩

theorem IsAddress.takeWhile_append (h : IsAddress width address) {tail : List Char}
    (htail : Stops '/' tail) : (address ++ tail).takeWhile (· != '/') = address := by
  refine (takeWhile_append_of_head (fun c hc => ?_) (htail.eq_false rfl)).1
  exact bne_iff_ne.mpr fun hslash => h.slash_notMem (hslash ▸ hc)

theorem isCidr_iff (s : String) : isCidr s = true ↔ IsNetwork s.toList ∨ IsSigned s.toList := by
  unfold isCidr
  dsimp only
  generalize s.toList = cs
  constructor
  · intro h
    obtain ⟨hsplit, hrest⟩ := split_takeWhile (· != '/') cs
    split at h
    · cases h
    · rename_i hwidth hempty
      rw [hempty, List.append_nil] at hsplit
      rw [← hsplit] at hwidth
      exact .inl (.alone (addressWidth?_eq_some_iff.mp hwidth))
    · rename_i width c tail hwidth htail
      have haddress := addressWidth?_eq_some_iff.mp hwidth
      have hslash : c = '/' := by simpa [htail] using hrest c
      obtain ⟨ds, hds, hform, hle⟩ := (any_length?_iff haddress.width_lt).mp h
      rw [hsplit, htail, hslash]
      obtain rfl | rfl := hform
      · exact .inl (.slash haddress hds hle)
      · exact .inr (.slash haddress hds hle)
  · rintro (h | h)
    · cases h with
      | alone h =>
        have htake := h.takeWhile_append (stops_nil '/')
        rw [List.append_nil] at htake
        rw [htake, List.drop_length, addressWidth?_eq_some_iff.mpr h]
      | slash h hds hle =>
        rw [h.takeWhile_append (stops_cons '/' _), List.drop_left, addressWidth?_eq_some_iff.mpr h]
        exact (any_length?_iff h.width_lt).mpr ⟨_, hds, .inl rfl, hle⟩
    · obtain ⟨h, hds, hle⟩ := h
      rw [h.takeWhile_append (stops_cons '/' _), List.drop_left, addressWidth?_eq_some_iff.mpr h]
      exact (any_length?_iff h.width_lt).mpr ⟨_, hds, .inr rfl, hle⟩

/-- A plus sign is no digit, so that a text is of one kind at most. -/
theorem IsSigned.not_isNetwork (h : IsSigned cs) : ¬ IsNetwork cs := by
  obtain ⟨haddress, hds, hle⟩ := h
  rename_i width address ds
  intro hnetwork
  generalize hcs : address ++ '/' :: '+' :: ds = cs at hnetwork
  have htake := haddress.takeWhile_append (stops_cons '/' ('+' :: ds))
  rw [hcs] at htake
  cases hnetwork with
  | alone h =>
    refine h.slash_notMem ?_
    rw [← hcs]
    simp
  | @slash _ address' ds' h hds' _ =>
    rw [h.takeWhile_append (stops_cons '/' ds')] at htake
    rw [htake, List.append_cancel_left_eq, List.cons.injEq] at hcs
    exact absurd (hds'.isDigit '+' (hcs.2 ▸ List.mem_cons_self)) Bool.false_ne_true

theorem check_cidr (s : String) :
    ColumnType.cidr.check (.string s) = if isCidr s = true then some (.string s) else none := rfl

/-- **A network column takes the texts of networks as they are, and those that have a plus sign in
front of the length**; nothing else, where an address is what is read as one. -/
theorem cidr_exact (s : String) :
    (ColumnType.cidr.check (.string s) = some (.string s) ↔
        IsNetwork s.toList ∨ IsSigned s.toList) ∧
      (ColumnType.cidr.check (.string s) = none ↔ ¬ IsNetwork s.toList ∧ ¬ IsSigned s.toList) ∧
      ¬ (IsNetwork s.toList ∧ IsSigned s.toList) ∧
      ∀ width address, addressWidth? address = some width ↔ IsAddress width address := by
  have hiff := isCidr_iff s
  refine ⟨?_, ?_, fun h => h.2.not_isNetwork h.1, fun _ _ => addressWidth?_eq_some_iff⟩
  · rw [check_cidr, ← hiff]
    simp
  · rw [check_cidr, ← not_or, ← hiff]
    simp

theorem cidr_signed :
    ColumnType.cidr.check (.string "10.0.0.0/+8") = some (.string "10.0.0.0/+8") ∧
      ¬ IsNetwork "10.0.0.0/+8".toList := by
  have haddress : IsAddress 32 "10.0.0.0".toList := addressWidth?_eq_some_iff.mp (by decide +kernel)
  have hsigned : IsSigned ("10.0.0.0".toList ++ '/' :: '+' :: ['8']) :=
    .slash haddress ⟨List.cons_ne_nil '8' [], List.forall_mem_singleton.mpr rfl⟩ (by decide)
  have htaken : isCidr "10.0.0.0/+8" = true := by decide +kernel
  exact ⟨by rw [check_cidr, if_pos htaken], hsigned.not_isNetwork⟩

end SingleTable.Network
