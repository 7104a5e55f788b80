import Mathlib.Data.List.Infix
import Mathlib.Data.List.TakeWhile
import SingleTable.Diagnosis

/-! # The column of a duplicate

A database tells of a duplicate in a sentence that holds the duplicated value. Postgres names the
column in front of the value. MySQL names the key behind it, so that a value which holds the words
for a key is read in the key's place.

* `Diagnosis.postgresDetail`, `Diagnosis.mysqlMessage`: the sentences.
* `Diagnosis.enclosedHere?_eq_some_iff`, `Diagnosis.enclosed?_append`: what is searched for in them.
* `Diagnosis.Imitates`: the values that hold the words for a key.
* `Diagnosis.uniqueColumn?_exact`: the column that is found, by the value and the key.
-/

namespace SingleTable.Diagnosis

/-! ## The search for an enclosed text -/

section Search
variable {lead trail cs rest s : List Char} {stop : Char}

theorem takeWhile_stop (h : stop ∉ s) (rest : List Char) :
    (s ++ stop :: rest).takeWhile (· != stop) = s := by
  have hs : ∀ c ∈ s, (c != stop) = true := fun c hc => bne_iff_ne.mpr fun e => h (e ▸ hc)
  rw [List.takeWhile_append_of_pos hs, List.takeWhile_cons_of_neg (by simp), List.append_nil]

/-- A text is found at the head of another one if it stands there between `lead` and `trail`, is not
empty, and is without the character with which `trail` begins. -/
theorem enclosedHere?_eq_some_iff :
    enclosedHere? lead stop (stop :: trail) cs = some s ↔
      s ≠ [] ∧ stop ∉ s ∧ lead ++ (s ++ stop :: trail) <+: cs := by
  unfold enclosedHere? behind?
  constructor
  · intro h
    obtain ⟨rest, hrest, h⟩ := Option.bind_eq_some_iff.mp h
    split at hrest
    · rename_i hlead
      obtain ⟨tail, rfl⟩ := List.isPrefixOf_iff_prefix.mp hlead
      obtain rfl := Option.some.inj hrest
      rw [List.drop_left] at h
      dsimp only at h
      split at h
      · cases h
      · rename_i hinner
        obtain rfl := Option.some.inj h
        rw [Bool.or_eq_true, not_or, List.isEmpty_iff, Bool.not_eq_true', Bool.not_eq_false,
          List.isPrefixOf_iff_prefix] at hinner
        obtain ⟨hne, hprefix⟩ := hinner
        refine ⟨hne, fun hmem => ?_, List.prefix_append_right_inj lead |>.mpr ?_⟩
        · simpa using List.mem_takeWhile_imp hmem
        · obtain ⟨after, hafter⟩ := hprefix
          refine ⟨after, ?_⟩
          rw [List.append_assoc, hafter]
          exact List.prefix_append_drop (List.takeWhile_prefix _) |>.symm
    · cases hrest
  · rintro ⟨hne, hstop, after, rfl⟩
    have hlead : lead.isPrefixOf (lead ++ (s ++ stop :: trail) ++ after) = true := by
      rw [List.isPrefixOf_iff_prefix, List.append_assoc]
      exact List.prefix_append _ _
    have hinner := takeWhile_stop hstop (trail ++ after)
    rw [if_pos hlead, Option.bind_eq_bind, Option.bind_some, List.append_assoc, List.drop_left,
      List.append_assoc, List.cons_append, hinner]
    dsimp only
    rw [List.drop_left, if_neg]
    simpa [List.isPrefixOf_iff_prefix] using hne

theorem enclosed?_eq_of_here (h : enclosedHere? lead stop trail cs = some s) (hne : cs ≠ []) :
    enclosed? lead stop trail cs = some s := by
  obtain ⟨c, cs, rfl⟩ := List.exists_cons_of_ne_nil hne
  rw [enclosed?, h, Option.some_or]

/-- The search passes over what is found at no place. -/
theorem enclosed?_append {before : List Char}
    (h : ∀ part, part ≠ [] → part <:+ before →
      enclosedHere? lead stop trail (part ++ rest) = none) :
    enclosed? lead stop trail (before ++ rest) = enclosed? lead stop trail rest := by
  induction before with
  | nil => rfl
  | cons c before ih =>
    have hhere := h (c :: before) (List.cons_ne_nil c before) List.suffix_rfl
    rw [List.cons_append] at hhere
    rw [List.cons_append, enclosed?, hhere, Option.none_or]
    exact ih fun part hne hpart => h part hne (hpart.trans (List.suffix_cons c before))

theorem exists_enclosed? {part : List Char} (hpart : part <:+ cs) (hne : part ≠ [])
    (h : enclosedHere? lead stop trail part = some s) :
    ∃ t, enclosed? lead stop trail cs = some t := by
  obtain ⟨before, rfl⟩ := hpart
  induction before with
  | nil => exact ⟨s, enclosed?_eq_of_here h hne⟩
  | cons c before ih =>
    obtain ⟨t, ht⟩ := ih
    rw [List.cons_append, enclosed?, ht]
    cases enclosedHere? lead stop trail (c :: (before ++ part)) with
    | none => exact ⟨t, rfl⟩
    | some u => exact ⟨u, rfl⟩

theorem exists_of_enclosed? (h : enclosed? lead stop (stop :: trail) cs = some s) :
    ∃ before after, cs = before ++ (lead ++ (s ++ stop :: trail)) ++ after := by
  induction cs with
  | nil => cases h
  | cons c cs ih =>
    rw [enclosed?] at h
    cases hhere : enclosedHere? lead stop (stop :: trail) (c :: cs) with
    | none =>
      rw [hhere, Option.none_or] at h
      obtain ⟨before, after, rfl⟩ := ih h
      exact ⟨c :: before, after, rfl⟩
    | some u =>
      rw [hhere, Option.some_or] at h
      obtain rfl := Option.some.inj h
      obtain ⟨-, -, after, hafter⟩ := enclosedHere?_eq_some_iff.mp hhere
      exact ⟨[], after, hafter.symm⟩

end Search

/-- Of two texts that end with `stop`, the longer one holds it where the shorter one ends. -/
theorem prefix_of_prefix_beyond {lead s t : List Char} {stop : Char} (hstop : stop ∉ t)
    (hlead : lead.length ≤ s.length) (h : s ++ [stop] <+: lead ++ (t ++ [stop])) :
    lead ++ (t ++ [stop]) <+: s ++ [stop] := by
  obtain ⟨after, hafter⟩ := h
  rcases List.eq_nil_or_concat after with rfl | ⟨after, z, rfl⟩
  · rw [← hafter, List.append_nil]
  · have hcut : s ++ stop :: after ++ [z] = lead ++ t ++ [stop] := by simpa using hafter
    have hmiddle : s ++ stop :: after = lead ++ t := (List.append_inj' hcut rfl).1
    rcases List.append_eq_append_iff.mp hmiddle with ⟨m, hlong, -⟩ | ⟨m, -, hm⟩
    · have hm : m = [] := by
        have hlength := congrArg List.length hlong
        rw [List.length_append] at hlength
        exact List.length_eq_zero_iff.mp (by omega)
      rw [hlong, hm, List.append_nil] at hmiddle
      have ht : stop :: after = t := List.append_cancel_left hmiddle
      exact absurd (ht ▸ List.mem_cons_self) hstop
    · exact absurd (hm ▸ List.mem_append_right m List.mem_cons_self) hstop

/-- A text that is found stays found when more is written behind the text searched. The character
with which the end begins is not searched for again behind the place where it is found. -/
theorem enclosed?_append_right {lead cs s : List Char} {stop : Char}
    (h : enclosed? lead stop [stop] cs = some s) (rest : List Char) :
    enclosed? lead stop [stop] (cs ++ rest) = some s := by
  induction cs with
  | nil => cases h
  | cons c cs ih =>
    rw [enclosed?] at h
    rw [List.cons_append, enclosed?]
    cases hhere : enclosedHere? lead stop [stop] (c :: cs) with
    | some u =>
      rw [hhere, Option.some_or] at h
      obtain ⟨hne, hstop, hprefix⟩ := enclosedHere?_eq_some_iff.mp hhere
      have hlonger : enclosedHere? lead stop [stop] (c :: cs ++ rest) = some u :=
        enclosedHere?_eq_some_iff.mpr ⟨hne, hstop, hprefix.trans (List.prefix_append _ _)⟩
      rw [← List.cons_append, hlonger, Option.some_or, h]
    | none =>
      rw [hhere, Option.none_or] at h
      rw [ih h]
      cases hlonger : enclosedHere? lead stop [stop] (c :: (cs ++ rest)) with
      | none => rfl
      | some u =>
        obtain ⟨hne, hstop, hprefix⟩ := enclosedHere?_eq_some_iff.mp hlonger
        obtain ⟨before, after, rfl⟩ := exists_of_enclosed? h
        have hlater : c :: before ++ (lead ++ s) ++ [stop] <+:
            c :: (before ++ (lead ++ (s ++ [stop])) ++ after ++ rest) := ⟨after ++ rest, by simp⟩
        have hinside := (List.prefix_or_prefix_of_prefix hprefix hlater).elim id
          (prefix_of_prefix_beyond hstop (by simp; omega))
        have hfound : enclosedHere? lead stop [stop]
            (c :: (before ++ (lead ++ (s ++ [stop])) ++ after)) = some u :=
          enclosedHere?_eq_some_iff.mpr ⟨hne, hstop, hinside.trans ⟨after, by simp⟩⟩
        rw [hfound] at hhere
        cases hhere

/-! ## Words that begin with a letter of their own -/

/-- A word in which the first letter does not come again does not overlap with itself. -/
theorem prefix_of_prefix_append {f : Char} {word part rest : List Char} (hf : f ∉ word)
    (hpart : part ≠ []) (h : f :: word <+: part ++ f :: rest) : f :: word <+: part := by
  rcases List.prefix_or_prefix_of_prefix h (List.prefix_append part (f :: rest)) with hin | hout
  · exact hin
  · obtain ⟨after, hafter⟩ := hout
    cases after with
    | nil =>
      rw [List.append_nil] at hafter
      rw [hafter]
    | cons g after =>
      rw [← hafter, List.prefix_append_right_inj, List.cons_prefix_cons] at h
      obtain ⟨c, part, rfl⟩ := List.exists_cons_of_ne_nil hpart
      obtain ⟨-, hword⟩ := List.cons.inj hafter
      rw [← h.1, ← hword] at hf
      exact absurd (List.mem_append_right part List.mem_cons_self) hf

/-- A letter is not found in front of which it does not stand. -/
theorem exists_of_append_eq {f : Char} {front xs before after : List Char} (hf : f ∉ front)
    (h : front ++ xs = before ++ f :: after) :
    ∃ a, before = front ++ a ∧ xs = a ++ f :: after := by
  rcases List.append_eq_append_iff.mp h with ⟨a, hbefore, hxs⟩ | ⟨a, hfront, hafter⟩
  · exact ⟨a, hbefore, hxs⟩
  · cases a with
    | nil => exact ⟨[], by rw [hfront, List.append_nil, List.append_nil], hafter.symm⟩
    | cons g a =>
      obtain ⟨rfl, -⟩ := List.cons.inj hafter
      exact absurd (hfront ▸ List.mem_append_right before List.mem_cons_self) hf

/-! ## The sentences -/

def postgresDetail (value column : String) : String :=
  "Key (" ++ column ++ ")=(" ++ value ++ ") already exists."

def mysqlMessage (value key : String) : String :=
  "Duplicate entry '" ++ value ++ "' for key '" ++ key ++ "'"

/-- The words in front of a key, with the quote that opens it. -/
def keyWords : List Char := "for key '".toList

/-- The value, with the quote that closes it, holds the words for a key, and a name begins behind
them: no quote follows. -/
def Imitates (value : String) : Prop :=
  ∃ a b, value.toList ++ ['\''] = a ++ (keyWords ++ b) ∧ b.head? ≠ some '\''

instance (value : String) : Decidable (Imitates value) :=
  decidable_of_iff (∃ part ∈ (value.toList ++ ['\'']).tails,
      keyWords <+: part ∧ (part.drop keyWords.length).head? ≠ some '\'') <| by
    constructor
    · rintro ⟨_, hpart, ⟨b, rfl⟩, hhead⟩
      obtain ⟨a, ha⟩ := (List.mem_tails _ _).mp hpart
      rw [List.drop_left] at hhead
      exact ⟨a, b, ha.symm, hhead⟩
    · rintro ⟨a, b, hvalue, hhead⟩
      refine ⟨keyWords ++ b, (List.mem_tails _ _).mpr ⟨a, hvalue.symm⟩, List.prefix_append _ _, ?_⟩
      rw [List.drop_left]
      exact hhead

/-- The message up to the name of the key. -/
def openChars (value : String) : List Char :=
  "Duplicate entry '".toList ++ (value.toList ++ ['\'', ' ']) ++ keyWords

theorem toList_mysqlMessage (value key : String) :
    (mysqlMessage value key).toList = openChars value ++ (key.toList ++ ['\'']) := by
  have hwords : "' for key '".toList = ['\'', ' '] ++ keyWords := by decide +kernel
  have hquote : "'".toList = ['\''] := by decide
  unfold mysqlMessage openChars
  simp only [String.toList_append]
  rw [hwords, hquote]
  simp only [List.append_assoc]

theorem uniqueColumn?_mysql (e : DriverError) :
    uniqueColumn? .mysql e =
      (enclosed? keyWords '\'' ['\''] e.message.toList).map fun cs =>
        String.ofList (lastSegment cs) := rfl

theorem uniqueColumn?_postgres (e : DriverError) :
    uniqueColumn? .postgres e =
      (enclosed? "Key (".toList ')' [')', '='] e.detailText.toList).map fun cs =>
        String.ofList (lastSegment cs) := rfl

/-! ## Names of keys -/

theorem lastSegment_of_notMem {cs : List Char} (h : '.' ∉ cs) : lastSegment cs = cs := by
  rw [lastSegment, List.splitOn_eq_singleton h]
  rfl

theorem lastSegment_append {t cs : List Char} (ht : '.' ∉ t) (h : '.' ∉ cs) :
    lastSegment (t ++ '.' :: cs) = cs := by
  have hparts : ∀ l ∈ [t, cs], '.' ∉ l := by simpa using ⟨ht, h⟩
  have hsplit := List.splitOn_intercalate '.' hparts (List.cons_ne_nil t [cs])
  have hjoin : ['.'].intercalate [t, cs] = t ++ '.' :: cs := by simp [List.intercalate]
  rw [lastSegment, ← hjoin, hsplit]
  rfl

/-! ## The two reports -/

theorem exists_keyWords_eq : ∃ word, keyWords = 'f' :: word ∧ 'f' ∉ word :=
  ⟨_, rfl, by decide +kernel⟩

theorem exists_keyWords_eq_concat : ∃ words, keyWords = words ++ ['\''] :=
  ⟨"for key ".toList, by decide +kernel⟩

section Reports
variable {value : String}

/-- The column stands in front of the value, at the head of the detail. -/
theorem uniqueColumn?_of_detailText {column : String} (hcolumn : Identifier.IsWord column)
    {e : DriverError} (h : e.detailText = postgresDetail value column) :
    uniqueColumn? .postgres e = some column := by
  have hclose : ')' ∉ column.toList := fun hc => nomatch hcolumn.forall_mem ')' hc
  have hdot : '.' ∉ column.toList := fun hc => nomatch hcolumn.forall_mem '.' hc
  have htext : e.detailText.toList = "Key (".toList ++ (column.toList ++ [')', '=']) ++
      '(' :: (value.toList ++ ") already exists.".toList) := by
    have hopen : ")=(".toList = [')', '=', '('] := by decide +kernel
    rw [h]
    unfold postgresDetail
    simp only [String.toList_append]
    rw [hopen]
    simp only [List.append_assoc, List.cons_append, List.nil_append]
  have hhere : enclosedHere? "Key (".toList ')' [')', '='] e.detailText.toList =
      some column.toList :=
    enclosedHere?_eq_some_iff.mpr ⟨hcolumn.1, hclose, htext ▸ List.prefix_append _ _⟩
  have hne : e.detailText.toList ≠ [] := by
    rw [htext]
    exact List.append_ne_nil_of_right_ne_nil _ (List.cons_ne_nil _ _)
  rw [uniqueColumn?_postgres, enclosed?_eq_of_here hhere hne, Option.map_some,
    lastSegment_of_notMem hdot, String.ofList_toList]

/-- Nothing is found in front of the key if the value does not imitate one. -/
theorem enclosed?_of_not_imitates (h : ¬ Imitates value) (rest : List Char) :
    enclosed? keyWords '\'' ['\''] (openChars value ++ rest) =
      enclosed? keyWords '\'' ['\''] (keyWords ++ rest) := by
  obtain ⟨word, hword, hf⟩ := exists_keyWords_eq
  obtain ⟨words, hwords⟩ := exists_keyWords_eq_concat
  unfold openChars
  rw [List.append_assoc]
  refine enclosed?_append fun part hpart hsuffix => Option.eq_none_iff_forall_ne_some.mpr ?_
  intro named hnamed
  obtain ⟨hne, hstop, hprefix⟩ := enclosedHere?_eq_some_iff.mp hnamed
  obtain ⟨after, rfl⟩ : keyWords <+: part := by
    rw [hword] at hprefix ⊢
    exact prefix_of_prefix_append hf hpart ((List.prefix_append _ _).trans hprefix)
  obtain ⟨before, hbefore⟩ := hsuffix
  rw [hword, List.cons_append] at hbefore
  have hfront : 'f' ∉ "Duplicate entry '".toList := by decide +kernel
  obtain ⟨a, -, hvalue⟩ := exists_of_append_eq hfront hbefore.symm
  have hvalue : value.toList ++ ['\''] ++ [' '] = a ++ (keyWords ++ after) := by
    rw [hword, List.append_assoc]
    exact hvalue
  rcases List.eq_nil_or_concat after with rfl | ⟨b, z, rfl⟩
  · rw [hwords, List.append_nil, ← List.append_assoc] at hvalue
    have hlast := (List.append_inj' hvalue rfl).2
    cases hlast
  · have hvalue : value.toList ++ ['\''] ++ [' '] = a ++ (keyWords ++ b) ++ [z] := by
      simpa using hvalue
    have hquote : b.head? = some '\'' := by
      by_contra hhead
      exact h ⟨a, b, (List.append_inj' hvalue rfl).1, hhead⟩
    obtain ⟨b, rfl⟩ := List.head?_eq_some_iff.mp hquote
    obtain ⟨c, named, rfl⟩ := List.exists_cons_of_ne_nil hne
    rw [List.append_assoc, List.prefix_append_right_inj] at hprefix
    obtain ⟨rfl, -⟩ := List.cons_prefix_cons.mp hprefix
    exact hstop List.mem_cons_self

/-- What an imitating value names is found, whatever key comes behind it. -/
theorem exists_enclosed?_of_imitates (h : Imitates value) :
    ∃ named, ∀ rest, enclosed? keyWords '\'' ['\''] (openChars value ++ rest) = some named := by
  obtain ⟨a, b, hvalue, hhead⟩ := h
  have hsuffix : keyWords ++ (b ++ ' ' :: keyWords) <:+ openChars value := by
    refine ⟨"Duplicate entry '".toList ++ a, ?_⟩
    have hopen : value.toList ++ ['\'', ' '] = a ++ (keyWords ++ b) ++ [' '] := by
      rw [← hvalue]
      simp
    unfold openChars
    rw [hopen]
    simp
  obtain ⟨words, hwords⟩ := exists_keyWords_eq_concat
  have hquote : '\'' ∈ b ++ ' ' :: keyWords := by simp [hwords]
  obtain ⟨named, after, hnamed, hstop⟩ := List.eq_append_cons_of_mem hquote
  have hne : named ≠ [] := by
    rintro rfl
    cases b with
    | nil => cases hnamed
    | cons c b =>
      obtain ⟨rfl, -⟩ := List.cons.inj hnamed
      exact hhead rfl
  have hhere : enclosedHere? keyWords '\'' ['\''] (keyWords ++ (b ++ ' ' :: keyWords)) =
      some named :=
    enclosedHere?_eq_some_iff.mpr ⟨hne, hstop, after, by simp [hnamed]⟩
  have hpart : keyWords ++ (b ++ ' ' :: keyWords) ≠ [] := by simp
  obtain ⟨found, hfound⟩ := exists_enclosed? hsuffix hpart hhere
  exact ⟨found, enclosed?_append_right hfound⟩

theorem enclosed?_key {key : List Char} (hne : key ≠ []) (hquote : '\'' ∉ key) :
    enclosed? keyWords '\'' ['\''] (keyWords ++ (key ++ ['\''])) = some key := by
  have hhere : enclosedHere? keyWords '\'' ['\''] (keyWords ++ (key ++ ['\''])) = some key :=
    enclosedHere?_eq_some_iff.mpr ⟨hne, hquote, List.prefix_rfl⟩
  exact enclosed?_eq_of_here hhere (by simp)

/-- The words around the value name the column, with or without its table. -/
theorem uniqueColumn?_of_message (h : ¬ Imitates value) {table column : String}
    (htable : ∀ c ∈ table.toList, (c.isAlphanum || c == '_') = true)
    (hcolumn : Identifier.IsWord column) {e : DriverError}
    (he : e.message ∈ [mysqlMessage value (table ++ "." ++ column), mysqlMessage value column]) :
    uniqueColumn? .mysql e = some column := by
  have hquote : '\'' ∉ column.toList := fun hc => nomatch hcolumn.forall_mem '\'' hc
  have hdot : '.' ∉ column.toList := fun hc => nomatch hcolumn.forall_mem '.' hc
  rcases List.mem_pair.mp he with he | he
  · have hkey : (table ++ "." ++ column).toList = table.toList ++ '.' :: column.toList := by
      have hpoint : ".".toList = ['.'] := by decide
      rw [String.toList_append, String.toList_append, hpoint, List.append_assoc]
      rfl
    have htablequote : '\'' ∉ table.toList := fun hc => nomatch htable '\'' hc
    have htabledot : '.' ∉ table.toList := fun hc => nomatch htable '.' hc
    have hkeyquote : '\'' ∉ table.toList ++ '.' :: column.toList := by
      simp [htablequote, hquote]
    rw [uniqueColumn?_mysql, he, toList_mysqlMessage, enclosed?_of_not_imitates h, hkey,
      enclosed?_key (by simp) hkeyquote, Option.map_some, lastSegment_append htabledot hdot,
      String.ofList_toList]
  · rw [uniqueColumn?_mysql, he, toList_mysqlMessage, enclosed?_of_not_imitates h,
      enclosed?_key hcolumn.1 hquote, Option.map_some, lastSegment_of_notMem hdot,
      String.ofList_toList]

/-- **Which column is reported for a duplicate.** Postgres's detail gives the column, whatever the
value is. MySQL's message gives it as long as the value does not imitate the words for a key; if it
does, the value alone decides what is reported, for every key. -/
theorem uniqueColumn?_exact (value : String) :
    (∀ column, Identifier.IsWord column → ∀ e : DriverError,
      e.detailText = postgresDetail value column → uniqueColumn? .postgres e = some column) ∧
    (¬ Imitates value → ∀ table column : String,
      (∀ c ∈ table.toList, (c.isAlphanum || c == '_') = true) → Identifier.IsWord column →
      ∀ e : DriverError,
        e.message ∈ [mysqlMessage value (table ++ "." ++ column), mysqlMessage value column] →
        uniqueColumn? .mysql e = some column) ∧
    (Imitates value → ∃ reported, ∀ key, ∀ e : DriverError,
      e.message = mysqlMessage value key → uniqueColumn? .mysql e = some reported) := by
  refine ⟨fun column hcolumn e he => uniqueColumn?_of_detailText hcolumn he,
    fun h table column htable hcolumn e he => uniqueColumn?_of_message h htable hcolumn he,
    fun h => ?_⟩
  obtain ⟨named, hnamed⟩ := exists_enclosed?_of_imitates h
  refine ⟨String.ofList (lastSegment named), fun key e he => ?_⟩
  rw [uniqueColumn?_mysql, he, toList_mysqlMessage, hnamed]
  rfl

/-- A value may hold the words for a key as long as no name follows them. -/
theorem uniqueColumn?_exact_quoted :
    let value := "Key (id)=(1), for key ''"
    let detail := "Key (email)=(Key (id)=(1), for key '') already exists."
    let message := "Duplicate entry 'Key (id)=(1), for key ''' for key 'users.email'"
    uniqueColumn? .postgres ⟨"23505", "duplicate key", some detail⟩ = some "email" ∧
      ¬ Imitates value ∧ uniqueColumn? .mysql ⟨"1062", message, none⟩ = some "email" := by
  intro value detail message
  have hcolumn : Identifier.IsWord "email" := by decide +kernel
  have htable : ∀ c ∈ "users".toList, (c.isAlphanum || c == '_') = true :=
    List.all_eq_true.mp (by decide +kernel)
  have hvalue : ¬ Imitates value := by decide +kernel
  have hmessage : message = mysqlMessage value ("users" ++ "." ++ "email") := by decide +kernel
  obtain ⟨hpostgres, hmysql, -⟩ := uniqueColumn?_exact value
  exact ⟨hpostgres "email" hcolumn _ (by decide +kernel), hvalue,
    hmysql hvalue "users" "email" htable hcolumn _ (hmessage ▸ List.mem_cons_self)⟩

/-- A value with the words for a key is taken for the naming of the key. -/
theorem uniqueColumn?_imitated :
    let value := "for key 'x"
    let message := "Duplicate entry 'for key 'x' for key 'users.email'"
    message = mysqlMessage value ("users" ++ "." ++ "email") ∧ Imitates value ∧
      uniqueColumn? .mysql ⟨"1062", message, none⟩ = some "x" := by
  decide +kernel

end Reports

end SingleTable.Diagnosis
