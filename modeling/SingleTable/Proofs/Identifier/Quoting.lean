import Mathlib.Logic.Function.Basic
import SingleTable.Proofs.Sql.Lexeme

/-! # Quoted names

A quoted name is read without knowing which name it comes from.

* `Part`: what a quoted name is made of, a star alone or the content of two quotes; `Part.text`
  writes one, and `read?` reads the parts of a whole text with dots between them.
* `read?_eq_some_iff`: what the reader accepts, so that no text has two readings.
* `sanitizeChars_quoteChars`: sanitizing takes the quotes off again.
* `quote_faithful`: quoted names are read back, and they differ as the sanitized names do.
-/

namespace SingleTable.Identifier
open Sql

/-! ## Parts -/

inductive Part
  | star
  | quoted (content : List Char)
deriving DecidableEq

namespace Part

def text (q : Char) : Part → List Char
  | star => ['*']
  | quoted s => q :: s ++ [q]

/-- The part that a segment of a name is written as. -/
def ofSegment (s : List Char) : Part := if s = ['*'] then star else quoted s

/-- The content holds no quote. -/
def IsClosed (q : Char) (p : Part) : Prop := ∀ s, p = quoted s → q ∉ s

theorem text_ofSegment (q : Char) (s : List Char) : (ofSegment s).text q = quoteSegment q s := by
  unfold ofSegment quoteSegment
  split
  · rename_i hs
    rw [hs]
    rfl
  · rfl

theorem ofSegment_injective : Function.Injective ofSegment := by
  intro s t h
  unfold ofSegment at h
  by_cases hs : s = ['*'] <;> by_cases ht : t = ['*']
  · rw [hs, ht]
  · rw [if_pos hs, if_neg ht] at h
    cases h
  · rw [if_neg hs, if_pos ht] at h
    cases h
  · rw [if_neg hs, if_neg ht] at h
    exact quoted.inj h

theorem isClosed_star (q : Char) : star.IsClosed q := by
  intro s hs
  cases hs

theorem isClosed_ofSegment {q : Char} {s : List Char} (h : q ∉ s) : (ofSegment s).IsClosed q := by
  intro t ht
  unfold ofSegment at ht
  split at ht
  · cases ht
  · obtain rfl := quoted.inj ht
    exact h

/-! ## Reading a part -/

/-- The part at the head of a text, and what follows it. -/
def read? (q : Char) : List Char → Option (Part × List Char)
  | [] => none
  | c :: cs =>
    if c = q then (readQuoted? q cs).map fun (s, rest) => (quoted s, rest)
    else if c = '*' then some (star, cs)
    else none

theorem notMem_of_readQuoted? {q : Char} {cs s rest : List Char}
    (h : readQuoted? q cs = some (s, rest)) : q ∉ s := by
  induction cs generalizing s with
  | nil => cases h
  | cons c cs ih =>
    unfold readQuoted? at h
    split at h
    · obtain ⟨rfl, -⟩ := Prod.mk.inj (Option.some.inj h)
      exact List.not_mem_nil
    · rename_i hc
      obtain ⟨⟨t, rest'⟩, ht, he⟩ := Option.map_eq_some_iff.mp h
      obtain ⟨rfl, rfl⟩ := Prod.mk.inj he
      rw [List.mem_cons, not_or]
      exact ⟨Ne.symm hc, ih ht⟩

theorem of_read? {q : Char} {cs rest : List Char} {p : Part} (h : read? q cs = some (p, rest)) :
    p.IsClosed q ∧ cs = p.text q ++ rest := by
  cases cs with
  | nil => cases h
  | cons c cs =>
    rw [read?] at h
    split at h
    · rename_i hc
      obtain ⟨⟨s, rest'⟩, hs, he⟩ := Option.map_eq_some_iff.mp h
      obtain ⟨rfl, rfl⟩ := Prod.mk.inj he
      refine ⟨fun t ht => quoted.inj ht ▸ notMem_of_readQuoted? hs, ?_⟩
      rw [eq_of_readQuoted? hs, hc]
      simp [text]
    split at h
    · rename_i hc
      obtain ⟨rfl, rfl⟩ := Prod.mk.inj (Option.some.inj h)
      exact ⟨isClosed_star q, by rw [hc]; rfl⟩
    · cases h

theorem read?_text {q : Char} (hq : q ≠ '*') {p : Part} (h : p.IsClosed q) (rest : List Char) :
    read? q (p.text q ++ rest) = some (p, rest) := by
  cases p with
  | star =>
    rw [text, List.singleton_append, read?, if_neg (Ne.symm hq), if_pos rfl]
  | quoted s =>
    have hs := readQuoted?_append (h s rfl) rest
    rw [text, List.cons_append, List.cons_append, List.append_assoc, List.singleton_append, read?,
      if_pos rfl, hs]
    rfl

theorem length_lt_of_read? {q : Char} {cs rest : List Char} {p : Part}
    (h : read? q cs = some (p, rest)) : rest.length < cs.length := by
  have htext : 0 < (p.text q).length := by cases p <;> simp [text]
  rw [(of_read? h).2, List.length_append]
  omega

end Part

/-! ## Reading a name -/

/-- The parts of a whole text, with a dot between each two of them. -/
def read? (q : Char) (cs : List Char) : Option (List Part) :=
  match _h : Part.read? q cs with
  | some (p, []) => some [p]
  | some (p, '.' :: rest) => (read? q rest).map (p :: ·)
  | _ => none
termination_by cs.length
decreasing_by
  have hlen := Part.length_lt_of_read? _h
  rw [List.length_cons] at hlen
  omega

theorem read?_last {q : Char} {cs : List Char} {p : Part} (h : Part.read? q cs = some (p, [])) :
    read? q cs = some [p] := by
  rw [read?]
  split
  · rename_i h'
    obtain ⟨rfl, -⟩ := Prod.mk.inj (Option.some.inj (h.symm.trans h'))
    rfl
  · rename_i h'
    cases h.symm.trans h'
  · rename_i hlast _
    exact absurd h (hlast p)

theorem read?_dot {q : Char} {cs rest : List Char} {p : Part}
    (h : Part.read? q cs = some (p, '.' :: rest)) : read? q cs = (read? q rest).map (p :: ·) := by
  rw [read?]
  split
  · rename_i h'
    cases h.symm.trans h'
  · rename_i h'
    obtain ⟨rfl, hrest⟩ := Prod.mk.inj (Option.some.inj (h.symm.trans h'))
    rw [(List.cons.inj hrest).2]
  · rename_i hdot
    exact absurd h (hdot p rest)

/-- Parts with a dot between each two of them. -/
def partsText (q : Char) (ps : List Part) : List Char := ['.'].intercalate (ps.map (Part.text q))

theorem partsText_cons_cons (q : Char) (p p' : Part) (ps : List Part) :
    partsText q (p :: p' :: ps) = p.text q ++ '.' :: partsText q (p' :: ps) := by
  rw [partsText, List.map_cons, List.map_cons, List.intercalate_cons_cons, List.append_assoc]
  rfl

theorem read?_partsText {q : Char} (hq : q ≠ '*') {ps : List Part} (hne : ps ≠ [])
    (h : ∀ p ∈ ps, p.IsClosed q) : read? q (partsText q ps) = some ps := by
  induction ps with
  | nil => exact absurd rfl hne
  | cons p ps ih =>
    have hp := Part.read?_text hq (h p List.mem_cons_self)
    cases ps with
    | nil =>
      have hlast : partsText q [p] = p.text q ++ [] := by simp [partsText]
      rw [hlast]
      exact read?_last (hp [])
    | cons p' ps =>
      have hrest := ih (List.cons_ne_nil p' ps) fun k hk => h k (List.mem_cons_of_mem p hk)
      rw [partsText_cons_cons, read?_dot (hp _), hrest]
      rfl

theorem of_read? {q : Char} {cs : List Char} {ps : List Part} (h : read? q cs = some ps) :
    ps ≠ [] ∧ (∀ p ∈ ps, p.IsClosed q) ∧ cs = partsText q ps := by
  fun_induction read? q cs generalizing ps with
  | case1 cs p hp =>
    obtain rfl := Option.some.inj h
    obtain ⟨hclosed, htext⟩ := Part.of_read? hp
    refine ⟨List.cons_ne_nil p [], ?_, ?_⟩
    · intro k hk
      rw [List.mem_singleton.mp hk]
      exact hclosed
    · rw [htext]
      simp [partsText]
  | case2 cs p rest hp ih =>
    obtain ⟨ps', hps', rfl⟩ := Option.map_eq_some_iff.mp h
    obtain ⟨hne, hclosed, hrest⟩ := ih hps'
    obtain ⟨hp, htext⟩ := Part.of_read? hp
    obtain ⟨p', ps'', rfl⟩ := List.exists_cons_of_ne_nil hne
    refine ⟨List.cons_ne_nil p _, List.forall_mem_cons.mpr ⟨hp, hclosed⟩, ?_⟩
    rw [htext, hrest, partsText_cons_cons]
  | case3 => cases h

/-- **A text is read exactly when it is parts with dots between them**, and then as these parts. -/
theorem read?_eq_some_iff {q : Char} (hq : q ≠ '*') {cs : List Char} {ps : List Part} :
    read? q cs = some ps ↔ ps ≠ [] ∧ (∀ p ∈ ps, p.IsClosed q) ∧ cs = partsText q ps := by
  constructor
  · exact of_read?
  · rintro ⟨hne, hclosed, rfl⟩
    exact read?_partsText hq hne hclosed

/-! ## Quoting a name -/

variable {q : Char}

theorem quoteChars_eq (q : Char) (name : String) :
    quoteChars q name = partsText q ((segments name).map Part.ofSegment) := by
  have htext : Part.text q ∘ Part.ofSegment = quoteSegment q :=
    funext fun s => Part.text_ofSegment q s
  rw [quoteChars, partsText, List.map_map, htext]

theorem ne_of_isKept_false {c : Char} (hq : isKept q = false) (hc : isKept c = true) : q ≠ c := by
  rintro rfl
  rw [hq] at hc
  cases hc

theorem read?_quoteChars (hq : isKept q = false) (name : String) :
    read? q (quoteChars q name) = some ((segments name).map Part.ofSegment) := by
  rw [quoteChars_eq]
  apply read?_partsText (ne_of_isKept_false hq rfl)
  · rw [ne_eq, List.map_eq_nil_iff]
    exact List.splitOn_ne_nil '.' (sanitizeChars name.toList)
  · intro p hp
    obtain ⟨s, hs, rfl⟩ := List.mem_map.mp hp
    refine Part.isClosed_ofSegment fun hmem => ?_
    exact ne_of_isKept_false hq (mem_segments hs q hmem).1 rfl

/-- The segments with dots between them are the sanitized name. -/
theorem intercalate_segments (name : String) :
    ['.'].intercalate (segments name) = sanitizeChars name.toList :=
  List.intercalate_splitOn '.'

theorem segments_inj {name other : String} :
    segments name = segments other ↔ sanitize name = sanitize other := by
  rw [sanitize, sanitize, String.ofList_inj]
  constructor
  · intro h
    rw [← intercalate_segments, h, intercalate_segments]
  · intro h
    rw [segments, segments, h]

theorem sanitizeChars_append (cs ds : List Char) :
    sanitizeChars (cs ++ ds) = sanitizeChars cs ++ sanitizeChars ds := List.filter_append cs ds

theorem sanitizeChars_quoteSegment (hq : isKept q = false) {s : List Char}
    (hs : ∀ c ∈ s, isKept c = true) : sanitizeChars (quoteSegment q s) = s := by
  have hself : sanitizeChars s = s := List.filter_eq_self.mpr hs
  unfold quoteSegment
  split
  · exact hself
  · have hquote : sanitizeChars [q] = [] := by simp [sanitizeChars, hq]
    rw [← List.singleton_append, sanitizeChars_append, sanitizeChars_append, hquote, hself,
      List.nil_append, List.append_nil]

theorem sanitizeChars_intercalate (hq : isKept q = false) {ss : List (List Char)}
    (h : ∀ s ∈ ss, ∀ c ∈ s, isKept c = true) :
    sanitizeChars (['.'].intercalate (ss.map (quoteSegment q))) = ['.'].intercalate ss := by
  induction ss with
  | nil => rfl
  | cons s ss ih =>
    have hs := sanitizeChars_quoteSegment hq (h s List.mem_cons_self)
    cases ss with
    | nil => simpa using hs
    | cons t ss =>
      have hrest := ih fun k hk => h k (List.mem_cons_of_mem s hk)
      have hdot : sanitizeChars ['.'] = ['.'] := rfl
      rw [List.map_cons] at hrest ⊢
      rw [List.map_cons, List.intercalate_cons_cons, List.intercalate_cons_cons,
        sanitizeChars_append, sanitizeChars_append, hs, hdot, hrest]

/-- What quoting adds, sanitizing takes off. -/
theorem sanitizeChars_quoteChars (hq : isKept q = false) (name : String) :
    sanitizeChars (quoteChars q name) = sanitizeChars name.toList := by
  rw [quoteChars, sanitizeChars_intercalate hq fun s hs c hc => (mem_segments hs c hc).1,
    intercalate_segments]

/-- **A quoted name says what the sanitized name says, and nothing else.** It is read back as the
segments of that name, a star alone being the only one without quotes; two names are quoted alike
when they are sanitized alike; and a quoted name is quoted already. -/
theorem quote_faithful (hq : isKept q = false) (name : String) :
    read? q (quote q name).toList =
        some (((sanitize name).toList.splitOn '.').map Part.ofSegment) ∧
      (∀ other, quote q name = quote q other ↔ sanitize name = sanitize other) ∧
      quote q (quote q name) = quote q name := by
  refine ⟨?_, fun other => ?_, ?_⟩
  · rw [quote, sanitize, String.toList_ofList, String.toList_ofList]
    exact read?_quoteChars hq name
  · rw [← segments_inj, quote, quote, String.ofList_inj]
    constructor
    · intro h
      have hread := read?_quoteChars hq name
      rw [h, read?_quoteChars hq other] at hread
      exact (List.map_inj_right fun _ _ he => Part.ofSegment_injective he).mp (Option.some.inj hread).symm
    · intro h
      rw [quoteChars, quoteChars, h]
  · have hsegments : segments (quote q name) = segments name := by
      rw [segments, segments, quote, String.toList_ofList, sanitizeChars_quoteChars hq]
    rw [quote, quoteChars, hsegments]
    rfl

theorem quote_faithful_hostile :
    isKept '"' = false ∧
      quote '"' "a\"; DROP--.*.é.b*.\"*\"" = "\"aDROP\".*.\"\".\"b*\".*" ∧
      read? '"' (quote '"' "a\"; DROP--.*.é.b*.\"*\"").toList =
        some [.quoted "aDROP".toList, .star, .quoted [], .quoted "b*".toList, .star] ∧
      quote '"' "a\"; DROP--.*.é.b*.\"*\"" = quote '"' "aDROP.*..b*.*" := by
  have hq : isKept '"' = false := rfl
  obtain ⟨hread, hsame, -⟩ := quote_faithful hq "a\"; DROP--.*.é.b*.\"*\""
  exact ⟨hq, by decide +kernel, hread.trans (by decide +kernel),
    (hsame "aDROP.*..b*.*").mpr (by decide +kernel)⟩

end SingleTable.Identifier
