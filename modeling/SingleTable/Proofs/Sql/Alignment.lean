import SingleTable.Proofs.Sql.Request

/-! # Placeholders and parameters

Placeholders are counted in the order of the text, and there are as many as parameters.

* `Shows`: a text in which the placeholders after the first `bound` ones are counted up to `n` more.
* `Binder.writeCondition`: a condition is numbered on from the parameters bound before it, which
  stay as they are.
* `Config.update`: what is assigned is numbered before the condition.
-/

namespace SingleTable
open Sql Sql.Fragment

namespace Sql

/-- A text that reads as SQL and in which the placeholders are, from left to right, those of `n`
values of which the first is number `bound + 1`. -/
def Shows (d : Dialect) (bound n : Nat) (text : String) : Prop :=
  ∃ xs, lex d text.toList = some xs ∧ placeholders xs = numerals d bound n

theorem params_cons (t : Token) (f : Fragment) :
    params (t :: f) = t.param?.toList ++ params f := by
  cases h : t.param? <;> simp [params, h]

theorem params_intercalate {sep : Fragment} (hsep : params sep = []) (parts : List Fragment) :
    params (sep.intercalate parts) = parts.flatMap params := by
  induction parts with
  | nil => rfl
  | cons f parts ih =>
    cases parts with
    | nil => simp
    | cons g parts =>
      rw [List.intercalate_cons_cons, params_append, params_append, hsep, ih, List.append_nil]
      rfl

theorem params_spaced (parts : List Fragment) : params (spaced parts) = parts.flatMap params :=
  params_intercalate rfl parts

theorem params_listed (parts : List Fragment) : params (listed parts) = parts.flatMap params :=
  params_intercalate rfl parts

theorem params_ofParam {p : Param} (h : p ≠ .default) : (ofParam p).params = [p] := by
  cases p <;> first | rfl | exact absurd rfl h

theorem params_enclosed (f : Fragment) : (enclosed f).params = f.params := by
  rw [enclosed, List.cons_append, params_cons, params_append]
  exact List.append_nil _

theorem shows_write (d : Dialect) (bound : Nat) {f : Fragment} (h : f.IsChain Apart) :
    Shows d bound f.params.length (write d bound f) := by
  refine ⟨_, lex_write d bound h, ?_⟩
  rw [placeholders_numbered, placeholders_lexemes]

/-- What a condition adds to a binder, and the text that shows it. -/
theorem writeCondition_spec (b : Binder) (filter : List Node) :
    ∃ new, (b.writeCondition filter).2 = { b with params := b.params ++ new } ∧
      match (b.writeCondition filter).1 with
      | none => new = []
      | some text => Shows b.dialect (b.offset + b.params.length) new.length text := by
  rw [Binder.writeCondition_eq]
  cases hf : condition? filter with
  | none => exact ⟨[], by simp, rfl⟩
  | some f => exact ⟨f.params, rfl, shows_write _ _ (isClause_condition f hf).apart⟩

/-- The condition of a statement is what a binder in its place writes, behind the word `WHERE`. -/
theorem write_whereClause (b : Binder) (filter : List Node) :
    write b.dialect (b.offset + b.params.length) (Fragment.tail (whereClause filter)) =
        (b.writeCondition filter).1.elim "" (" WHERE " ++ ·) ∧
      b.params ++ (Fragment.tail (whereClause filter)).params =
        (b.writeCondition filter).2.params := by
  rw [whereClause, Binder.writeCondition_eq]
  cases condition? filter with
  | none => exact ⟨rfl, List.append_nil _⟩
  | some f =>
    have htail : Fragment.tail (some (spaced [ofWord .where, f])) =
        .mark .blank :: .word .where :: .mark .blank :: f := by
      simp [Fragment.tail, spaced, ofWord, List.intercalate_cons_cons]
    rw [Option.map_some, htail]
    refine ⟨?_, rfl⟩
    change " " ++ ("WHERE" ++ (" " ++ write b.dialect (b.offset + b.params.length) f)) =
      " WHERE " ++ write b.dialect (b.offset + b.params.length) f
    rw [← String.append_assoc, ← String.append_assoc]
    rfl

end Sql

namespace Config

theorem shows_statement {c : Config} {r : Request} {command : Command}
    (h : c.statement r = .ok command) :
    Shows c.dialect 0 command.params.length command.sql := by
  obtain ⟨g, -, hp, hl⟩ := lex_statement h
  refine ⟨_, hl, ?_⟩
  rw [placeholders_append, placeholders_numbered, placeholders_lexemes, hp]
  exact List.append_nil _

theorem params_returningClause (d : Dialect) (columns : List String) :
    (Fragment.tail (returningClause d columns)).params = [] := by
  unfold returningClause
  split
  · rfl
  · have h : (columns.map Fragment.ofName).flatMap params = [] := by
      rw [List.flatMap_map]
      exact List.flatMap_eq_nil_iff.mpr fun _ _ => rfl
    simp only [Fragment.tail, params_cons, Token.param?, params_spaced, List.flatMap_cons,
      List.flatMap_nil, params_listed, h]
    rfl

theorem params_assignments (catalog : Catalog) (data : Record) :
    (Fragment.listed (data.map (assignment catalog))).params =
      data.flatMap fun field => (catalog.bound field.1 field.2).params := by
  rw [params_listed, List.flatMap_map]
  congr 1
  funext field
  simp only [assignment, params_spaced, List.flatMap_cons, List.flatMap_nil, List.append_nil]
  rfl

/-- An update is written in three parts: the assignments, the condition that goes on counting where
they end, and a rest without values. -/
theorem update_eq_parts {c : Config} {catalog : Catalog} {data : Record} {filter : List Node}
    {returning : List String} {command : Command}
    (h : c.statement (.update catalog data filter returning) = .ok command) :
    let assigned := data.flatMap fun field => (catalog.bound field.1 field.2).params
    let written := Binder.writeCondition ⟨c.dialect, 0, assigned⟩ filter
    ∃ head rest : String,
      command.sql = head ++ written.1.elim "" (" WHERE " ++ ·) ++ rest ∧
      command.params = written.2.params ∧
      Shows c.dialect 0 assigned.length head ∧
      Shows c.dialect command.params.length 0 rest := by
  intro assigned written
  rw [statement_eq_map] at h
  cases data with
  | nil => cases h
  | cons field fields =>
    obtain rfl := Except.ok.inj h
    let head := spaced [ofWord .update, ofName c.table, ofWord .assign,
      listed ((field :: fields).map (assignment catalog))]
    let condition := Fragment.tail (whereClause filter)
    let rest := ended (Fragment.tail (returningClause c.dialect returning))
    have hhead : IsClause head := .spaced (by
      simpa using ⟨IsClause.ofWord .update, IsClause.ofName c.table, IsClause.ofWord .assign,
        isClause_assignments catalog (field :: fields)⟩)
    have hassigned : head.params = assigned := by
      simp only [head, params_spaced, List.flatMap_cons, List.flatMap_nil, params_assignments]
      exact List.append_nil _
    have hrest : rest.IsChain Apart ∧ rest.params = [] := by
      refine ⟨isChain_ended (IsClause.nil.append_tail (isClause_returningClause _ _)), ?_⟩
      simp only [rest, ended, params_append, params_returningClause]
      rfl
    obtain ⟨hwhere, hparams⟩ := write_whereClause ⟨c.dialect, 0, assigned⟩ filter
    have hparts : ended (head ++ condition ++
        Fragment.tail (returningClause c.dialect returning)) = head ++ condition ++ rest :=
      List.append_assoc _ _ _
    have hcommand : c.command (head ++ condition ++ rest) =
        ⟨write c.dialect 0 head ++ written.1.elim "" (" WHERE " ++ ·) ++
          write c.dialect written.2.params.length rest, written.2.params⟩ := by
      rw [← hwhere, ← hparams]
      simp only [Config.command, Fragment.command, write_append, params_append, hassigned,
        hrest.2, List.append_nil, List.length_append, Nat.zero_add]
      rfl
    rw [← hparts] at hcommand
    have hshown := shows_write c.dialect 0 hhead.apart
    have hlast := shows_write c.dialect written.2.params.length hrest.1
    rw [hassigned] at hshown
    rw [hrest.2] at hlast
    refine ⟨write c.dialect 0 head, write c.dialect written.2.params.length rest, ?_, ?_, hshown, ?_⟩
    · exact congrArg Command.sql hcommand
    · exact congrArg Command.params hcommand
    · rw [congrArg Command.params hcommand]
      exact hlast

/-- **Placeholders are counted in the order of the text.** In a whole statement they run from one to
the number of parameters. A condition keeps what a binder holds and goes on counting behind it, so
that in an update all assignments are numbered before the condition. -/
theorem placeholders_aligned {c : Config} {r : Request} {command : Command}
    (h : c.statement r = .ok command) (b : Binder) (filter : List Node) :
    Shows c.dialect 0 command.params.length command.sql ∧
    (∃ new, (b.writeCondition filter).2 = { b with params := b.params ++ new } ∧
      match (b.writeCondition filter).1 with
      | none => new = []
      | some text => Shows b.dialect (b.offset + b.params.length) new.length text) ∧
    (∀ catalog data target returning, r = .update catalog data target returning →
      let assigned := data.flatMap fun field => (catalog.bound field.1 field.2).params
      let written := Binder.writeCondition ⟨c.dialect, 0, assigned⟩ target
      ∃ head rest : String,
        command.sql = head ++ written.1.elim "" (" WHERE " ++ ·) ++ rest ∧
        command.params = written.2.params ∧
        Shows c.dialect 0 assigned.length head ∧
        Shows c.dialect command.params.length 0 rest) := by
  refine ⟨shows_statement h, writeCondition_spec b filter, ?_⟩
  rintro catalog data target returning rfl
  exact update_eq_parts h

theorem placeholders_aligned_places :
    let c := Config.ofTable "places" (.ofList [⟨"id", .serial, false⟩, ⟨"spot", .point, false⟩])
    let data : Record := [("id", .null), ("spot", .object [("x", .null), ("y", .bool true)])]
    let target := [Node.leaf ⟨"id", .isIn, .many [.raw .null, .text "a"], .and, true⟩]
    ∃ command, c.statement (.update c.columns data target ["id"]) = .ok command ∧
      command.sql = "UPDATE \"places\" SET \"id\" = $1, \"spot\" = POINT($2, $3) " ++
        "WHERE DATE(\"id\") IN (DATE($4), DATE($5)) RETURNING \"id\";" ∧
      Shows .postgres 0 5 command.sql := by
  intro c data target
  have h := placeholders_aligned (c := c) (r := .update c.columns data target ["id"]) rfl
    ⟨.postgres, 4, [.null, .null, .null]⟩ target
  exact ⟨_, rfl, by decide +kernel, h.1⟩

end Config

end SingleTable
