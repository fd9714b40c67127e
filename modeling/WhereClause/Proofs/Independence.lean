/-
WhereClause/Proofs/Independence.lean

Compilation does not depend on where it starts.  If its sub-queries are selections,
which do not look at the number of values bound before, a specification is the same
text with gaps on every sink and in every style: what the sink has and how
placeholders are written only decides what goes into the gaps.

Main results: a node is uniform if its sub-queries and operands are
(`Condition.uniform_render`), and so is a specification
(`Compiler.compileInto_uniform`).
-/
import WhereClause.Proofs.Render.Uniform
import WhereClause.Proofs.Subqueries

namespace WhereClause

open Render

/-- A selection, as opposed to what was written out by hand. -/
def Subquery.IsSelection {S : Type} : Subquery S → Prop
  | .select _ _ _ => True
  | .template _ => False

section

variable {S : Type} (d : Dialect) (F : S → Start → Render String)

/-- What stands in a sub-query is written by `F`. -/
def Subquery.IsUniform (q : Subquery S) : Prop :=
  Uniform .text fun ρ => (q.map (F · ρ)).render (d.inStyle ρ.style)

variable {d F} {vs : List Value}

/-! ### Sub-queries and the sides of a test -/

/-- A selection is uniform if its filter is, since it writes all else from its own tables and
columns. A template need not be: it may write how many values are bound. -/
theorem Subquery.isUniform {q : Subquery S} (hq : q.IsSelection)
    (h : ∀ t ∈ q.nested, Uniform .text (F t)) : q.IsUniform d F := by
  let selection table columns := "SELECT " ++ columnList d columns ++ " FROM " ++ d.tableName table
  match q, hq with
  | .select table columns none, _ => exact .const (selection table columns)
  | .select table columns (some c), _ =>
    have hcondition : Uniform .text (F c) := h c (List.mem_singleton.2 rfl)
    apply Uniform.map hcondition
    intro vs a ha
    -- Whether there is a `WHERE` is the same from every start, since no placeholder is empty.
    have hwhere : IsText vs fun ρ => if (a ρ).isEmpty then "" else " WHERE " ++ a ρ :=
      .ifEmpty "" ha ((IsText.const " WHERE ").append ha)
    exact (IsText.const (selection table columns)).append hwhere

/-- Parentheses around a query are the same from every start. -/
theorem Subquery.IsUniform.parenthesized {q : Subquery S} (h : q.IsUniform d F) :
    Uniform .text fun ρ => (do
      return parenthesized (← (q.map (F · ρ)).render (d.inStyle ρ.style))) := by
  apply Uniform.map h
  intro vs a ha
  exact ha.parenthesized

/-- A side of a test is a text that is fixed, or one gap, or a query. -/
theorem Scalar.uniform_render {s : Scalar S} (h : ∀ q ∈ s.subqueries, q.IsUniform d F) :
    Uniform .text fun ρ => (s.map (F · ρ)).render (d.inStyle ρ.style) := by
  cases s with
  | null => exact .const _
  | value v => exact .value d v
  | raw sql => exact .const _
  | subquery q => exact (h q (List.mem_singleton.2 rfl)).parenthesized

theorem Column.uniform_render {c : Column S} (h : ∀ q ∈ c.subqueries, q.IsUniform d F) :
    Uniform .text fun ρ => (c.map (F · ρ)).render (d.inStyle ρ.style) := by
  cases c with
  | name n => exact .const (d.columnName n)
  | raw sql => exact .const _
  | subquery q => exact (h q (List.mem_singleton.2 rfl)).parenthesized

/-- The pattern that is bound does not depend on the start either. -/
theorem Pattern.uniform_render (table : Option (List (Char × String))) {p : Pattern S}
    (h : ∀ q ∈ p.subqueries, q.IsUniform d F) :
    Uniform .text fun ρ => (p.map (F · ρ)).render (d.inStyle ρ.style) table := by
  cases p with
  | text s => exact .value d _
  | raw sql => exact .const _
  | subquery q => exact (h q (List.mem_singleton.2 rfl)).parenthesized

/-! ### Membership tests -/

namespace Membership

/-- Which members are null is the same from every start, and those that are not are texts. -/
theorem uniform_renderMember (operator : String) (m : Option (Operand S)) :
    Uniform Results.text.option fun ρ =>
      renderMember (d.inStyle ρ.style) operator (m.map (Operand.map (F · ρ))) := by
  have hnone : ∀ vs, Results.text.option.holds vs fun _ => none := fun vs => .inl fun _ => rfl
  cases m with
  | none => exact fun vs => .pure (hnone vs)
  | some o =>
    cases o with
    | scalar s =>
      simp only [Option.map_some, Operand.map_scalar]
      cases s with
      | null => exact fun vs => .pure (hnone vs)
      | value v => exact (Uniform.value d v).map fun vs a ha => .inr ⟨a, ha, fun _ => rfl⟩
      | raw sql => exact fun vs => .pure (.inr ⟨_, IsText.const sql.text, fun _ => rfl⟩)
      | subquery q => exact .fail (.invalidOperand operator (.notScalar .subquery))
    | list items =>
      simp only [Option.map_some, Operand.map_list]
      exact .fail (.invalidOperand operator (.notScalar .list))
    | row entries =>
      simp only [Option.map_some, Operand.map_row]
      exact .fail (.invalidOperand operator (.notScalar .row))

/-- An entry that is absent or no scalar is so from every start. -/
theorem uniform_renderEntry (operator : String) {m : Option (Operand S)}
    (h : ∀ o ∈ m, ∀ q ∈ o.subqueries, q.IsUniform d F) :
    Uniform .text fun ρ =>
      renderEntry (d.inStyle ρ.style) operator (m.map (Operand.map (F · ρ))) := by
  cases m with
  | none => exact .const _
  | some o =>
    cases o with
    | scalar s =>
      simp only [Option.map_some, Operand.map_scalar]
      exact Scalar.uniform_render fun q hq => h _ rfl q (by rwa [Operand.subqueries])
    | list items =>
      simp only [Option.map_some, Operand.map_list]
      exact .fail (.invalidOperand operator (.notScalar .list))
    | row entries =>
      simp only [Option.map_some, Operand.map_row]
      exact .fail (.invalidOperand operator (.notScalar .row))

/-- The sub-queries of an entry are among those of the row. -/
theorem mem_subqueries_of_rowEntries {operator : String} {columns : List PlainColumn}
    {row o : Operand S} {entries : List (Option (Operand S))} {q : Subquery S}
    (h : rowEntries operator columns row = .ok entries) (ho : some o ∈ entries)
    (hq : q ∈ o.subqueries) : q ∈ row.subqueries := by
  cases row with
  | scalar s => simp [rowEntries] at h
  | list items =>
    cases h
    obtain ⟨i, -, hi⟩ := List.mem_map.1 ho
    rw [Operand.subqueries, Operand.itemSubqueries_eq]
    exact List.mem_flatMap.2 ⟨o, List.mem_of_getElem? hi, hq⟩
  | row es =>
    cases h
    obtain ⟨c, -, hc⟩ := List.mem_map.1 ho
    rw [Operand.subqueries, Operand.entrySubqueries_eq]
    exact List.mem_flatMap.2 ⟨_, Keyed.mem_of_lookup hc, hq⟩

/-- The entries of a row are chosen by the columns, before anything is bound. -/
theorem uniform_renderRow (operator : String) (columns : List PlainColumn) {o : Operand S}
    (h : ∀ q ∈ o.subqueries, q.IsUniform d F) :
    Uniform .text fun ρ =>
      renderRow (d.inStyle ρ.style) operator columns (o.map (F · ρ)) := by
  simp only [renderRow, rowEntries_map]
  -- Whether the operand is a row does not depend on the start either.
  cases hentries : rowEntries operator columns o with
  | error e => exact .fail e
  | ok entries =>
    have hmapM : Uniform Results.text.each fun ρ =>
        (entries.map (Option.map (Operand.map (F · ρ)))).mapM
          (renderEntry (d.inStyle ρ.style) operator) := by
      simp only [List.mapM_map]
      refine Uniform.mapM fun m hm => uniform_renderEntry operator fun o' ho' q hq => ?_
      rw [Option.mem_def.1 ho'] at hm
      exact h q (mem_subqueries_of_rowEntries hentries hm hq)
    apply Uniform.map hmapM
    intro vs as has
    exact (IsText.intercalate ", " has).parenthesized

/-- The form of a test depends on how many members there are and whether one is null, and both
are the same from every start. -/
theorem isText_test (column : String) (polarity : Polarity) {as : Start → List (Option String)}
    (has : Results.text.option.each.holds vs as) :
    IsText vs fun ρ => test column polarity (as ρ) := by
  obtain ⟨⟨hasNone, hany⟩, bs, hbs, hfilter⟩ := Results.each_option has
  -- The test against the members that are there is a text, or there are none from any start.
  have hlist : Results.text.option.holds vs fun ρ =>
      listTest column polarity ((as ρ).filterMap id) := by
    simp only [hfilter]
    match bs, hbs with
    | [], _ => exact .inl fun _ => rfl
    | [b], hbs =>
      have hb := hbs b (List.mem_singleton_self b)
      cases polarity with
      | positive => exact .inr ⟨_, (IsText.const (column ++ " = ")).append hb, fun _ => rfl⟩
      | negative => exact .inr ⟨_, (IsText.const (column ++ " <> ")).append hb, fun _ => rfl⟩
    | b :: b' :: bs, hbs =>
      have hmembers := IsText.intercalate ", " ⟨b :: b' :: bs, hbs, fun _ => rfl⟩
      exact .inr ⟨_, (IsText.const (column ++ " " ++ polarity.apply "IN" ++ " ")).append
        hmembers.parenthesized, fun _ => rfl⟩
  have hnull : IsText vs fun _ => nullTest column polarity := .const _
  -- Whether one of the members is null is the same from every start.
  simp only [test, hany]
  rcases hlist with h | ⟨b, hb, h⟩
  · simp only [h]
    cases hasNone with
    | true => exact hnull
    | false => exact IsText.const polarity.overNothing
  · simp only [h]
    cases hasNone with
    | true =>
      cases polarity with
      | positive => exact ((hb.append (IsText.const " OR ")).append hnull).parenthesized
      | negative => exact ((hb.append (IsText.const " AND ")).append hnull).parenthesized
    | false => exact hb

/-- Columns are written without a placeholder, so the style does not matter. -/
theorem columnsText_inStyle (style : PlaceholderStyle) (columns : List PlainColumn) :
    columnsText (d.inStyle style) columns = columnsText d columns := by
  have htext : (fun c : PlainColumn => c.text (d.inStyle style)) = (·.text d) := by
    funext c
    cases c <;> rfl
  match columns with
  | [] => rfl
  | [c] => exact congrFun htext c
  | c :: c' :: cs => simp only [columnsText, htext]

/-- A test of membership is uniform if its sub-queries are. -/
theorem uniform_render (columns : List PlainColumn) (polarity : Polarity) {x : Candidates S}
    (h : ∀ q ∈ x.subqueries, q.IsUniform d F) :
    Uniform .text fun ρ => render (d.inStyle ρ.style) columns polarity (x.map (F · ρ)) := by
  have hnothing : Uniform .text fun _ => pure polarity.overNothing :=
    .const polarity.overNothing
  let head (columns : List PlainColumn) :=
    columnsText d columns ++ " " ++ polarity.apply "IN" ++ " "
  cases x with
  | subquery q =>
    cases columns with
    | nil => exact hnothing
    | cons c cs =>
      have hquery : q.IsUniform d F := h q (List.mem_singleton.2 rfl)
      apply Uniform.map hquery
      intro vs a ha
      simp only [columnsText_inStyle]
      exact (IsText.const (head (c :: cs))).append ha.parenthesized
  | members items =>
    simp only [Candidates.map_members]
    -- What is written without a column or without members is a fixed text.
    match columns, items with
    | [], [] => exact hnothing
    | [], _ :: _ => exact hnothing
    | _ :: _, [] => exact hnothing
    | [column], m :: ms =>
      have hmembers : Uniform Results.text.option.each fun ρ =>
          ((m :: ms).map (Operand.map (F · ρ))).mapM fun o =>
            renderMember (d.inStyle ρ.style) (polarity.apply "IN") (entryUnder column o) := by
        simp only [List.mapM_map]
        refine Uniform.mapM fun o _ => ?_
        -- Which part of a member stands under the column is settled before the start.
        simp only [Function.comp_apply, entryUnder_map]
        exact uniform_renderMember _ _
      apply Uniform.map hmembers
      intro vs as has
      exact isText_test (column.text d) polarity has
    | c :: c' :: cs, m :: ms =>
      have hrows : Uniform Results.text.each fun ρ =>
          ((m :: ms).map (Operand.map (F · ρ))).mapM
            (renderRow (d.inStyle ρ.style) (polarity.apply "IN") (c :: c' :: cs)) := by
        simp only [List.mapM_map]
        refine Uniform.mapM fun o ho => uniform_renderRow _ _ fun q hq => h q ?_
        exact List.mem_flatMap.2 ⟨o, ho, hq⟩
      apply Uniform.map hrows
      intro vs as has
      have hlist : IsText vs fun ρ => ", ".intercalate (as ρ) := .intercalate ", " has
      simp only [columnsText_inStyle]
      exact (IsText.const (head (c :: c' :: cs))).append hlist.parenthesized

end Membership

/-! ### Nodes -/

/-- The test of an entry is a text with one gap, or a test of membership. -/
theorem HashTest.uniform_render (column : String) {e : HashTest S}
    (h : ∀ q ∈ e.subqueries, q.IsUniform d F) :
    Uniform .text fun ρ => (e.map (F · ρ)).render (d.inStyle ρ.style) column := by
  cases e with
  | scalar s =>
    cases s with
    | null => exact .const (d.columnName column ++ " IS NULL")
    | value v =>
      apply Uniform.map (Uniform.value d v)
      intro vs a ha
      exact (IsText.const (d.columnName column ++ "=")).append ha
    | raw sql => exact .const (d.columnName column ++ "=" ++ sql.text)
    | subquery q =>
      exact Membership.uniform_render [.name column] .positive (x := .subquery q) h
  | list items =>
    have hitems := Membership.uniform_render (d := d) (F := F) [.name column] .positive
      (x := .members items) h
    simp only [Candidates.map_members] at hitems
    simp only [map_list]
    exact hitems

/-- Clauses are joined by their number, which is the same from every start. -/
theorem Junction.isText_join (j : Junction) {as : Start → List String}
    (has : Results.text.each.holds vs as) : IsText vs fun ρ => j.join (as ρ) := by
  obtain ⟨bs, hbs, has⟩ := has
  simp only [has]
  match bs, hbs with
  | [], _ => exact IsText.const ""
  | [b], hbs => exact hbs b (List.mem_singleton_self b)
  | b :: b' :: bs, hbs =>
    have hclauses : Results.text.each.holds vs fun ρ =>
        ((b :: b' :: bs).map (· ρ)).map parenthesized := by
      apply Results.each_map (P := Results.text) ⟨b :: b' :: bs, hbs, fun _ => rfl⟩
      intro a ha
      exact IsText.parenthesized ha
    exact .intercalate (" " ++ j.text ++ " ") hclauses

namespace Condition

/-- Operands are written in turn, and a place before an error is the same from every start. -/
theorem uniform_renderOperands (j : Junction) {operands : List S}
    (h : ∀ t ∈ operands, Uniform .text (F t)) :
    Uniform Results.text.each fun ρ => renderOperands j (operands.map (F · ρ)) := by
  simp only [renderOperands, List.zipIdx_map, List.mapM_map]
  apply Uniform.mapM
  intro e he
  have hoperand : Uniform .text (F e.1) := h e.1 (List.fst_mem_of_mem_zipIdx he)
  exact hoperand.within (.operand (e.2 + 1) j)

/-- What is negated is empty from every start, or from none. -/
theorem isText_negated {a : Start → String} (ha : IsText vs a) :
    IsText vs fun ρ => negated (a ρ) :=
  .ifEmpty "" ha ((IsText.const "NOT ").append ha.parenthesized)

/-- All patterns are tested against one text of the column. -/
theorem uniform_renderAll (operator : LikeOperator) (escaping : Escaping) {column : Column S}
    {patterns : List (Pattern S)} (hcolumn : ∀ q ∈ column.subqueries, q.IsUniform d F)
    (hpatterns : ∀ p ∈ patterns, ∀ q ∈ p.subqueries, q.IsUniform d F) :
    Uniform .text fun ρ => Pattern.renderAll (d.inStyle ρ.style) (column.map (F · ρ)) operator
      escaping (patterns.map (·.map (F · ρ))) := by
  cases patterns with
  | nil => exact .const operator.polarity.overNothing
  | cons p ps =>
    have htexts : Uniform Results.text.each fun ρ =>
        ((p :: ps).map (·.map (F · ρ))).mapM
          (Pattern.render (d.inStyle ρ.style) (d.options.escapeTable escaping)) := by
      simp only [List.mapM_map]
      apply Uniform.mapM
      intro p' hp'
      exact Pattern.uniform_render _ (hpatterns p' hp')
    apply Uniform.bind (Column.uniform_render hcolumn)
    intro vs a ha
    apply UniformAt.bind (htexts vs)
    intro vs' as hvs has
    apply UniformAt.pure
    -- The text of the column is made once, before any pattern, and stands in each clause.
    have hsubject : IsText vs' a := Results.text.mono hvs ha
    apply IsText.intercalate (" " ++ operator.junction.text ++ " ")
    apply Results.each_map has
    intro b hb
    have hleft := (hsubject.append (.const " ")).append (.const operator.core)
    have htest := (hleft.append (.const " ")).append hb
    exact htest.append (.const (Pattern.escapeClause d.options.likeEscape))

/-- The three parts of a range, whatever they are. -/
theorem uniform_between (polarity : Polarity) {x low high : Start → Render String}
    (hx : Uniform .text x) (hlow : Uniform .text low) (hhigh : Uniform .text high) :
    Uniform .text fun ρ => do
      let x ← x ρ
      let low ← low ρ
      let high ← high ρ
      return x ++ " " ++ polarity.apply "BETWEEN" ++ " " ++ low ++ " AND " ++ high := by
  apply Uniform.bind hx
  intro vs a ha
  apply UniformAt.bind (hlow vs)
  intro vs' b hvs hb
  apply UniformAt.bind (hhigh vs')
  intro vs'' c hvs' hc
  apply UniformAt.pure
  -- What is known of a part is known of it still when the parts after it have bound more.
  have ha : IsText vs'' a := Results.text.mono (hvs.trans hvs') ha
  have hb : IsText vs'' b := Results.text.mono hvs' hb
  have hleft := (ha.append (.const " ")).append (.const (polarity.apply "BETWEEN"))
  have hmiddle := (hleft.append (.const " ")).append hb
  exact (hmiddle.append (.const " AND ")).append hc

/-- **A node is uniform** if its sub-queries are and what it joins or negates is. -/
theorem uniform_render {c : Condition S} (hq : ∀ q ∈ c.subqueries, q.IsUniform d F)
    (hs : ∀ t ∈ c.operands, Uniform .text (F t)) :
    Uniform .text fun ρ => (c.map (F · ρ)).render (d.inStyle ρ.style) := by
  cases c with
  | hash entries =>
    simp only [map_hash]
    have hentries : Uniform Results.text.each fun ρ =>
        (entries.map fun e => (e.1, e.2.map (F · ρ))).mapM fun e =>
          e.2.render (d.inStyle ρ.style) e.1 := by
      simp only [List.mapM_map]
      apply Uniform.mapM
      intro e he
      apply HashTest.uniform_render e.1
      intro q h
      exact hq q (List.mem_flatMap.2 ⟨e, he, h⟩)
    apply Uniform.map hentries
    intro vs as has
    exact Junction.and.isText_join has
  | comparison column operator value =>
    obtain ⟨hcolumn, hvalue⟩ := List.forall_mem_append.1 hq
    apply Uniform.bind (Column.uniform_render hcolumn)
    intro vs a ha
    apply UniformAt.bind (Scalar.uniform_render hvalue vs)
    intro vs' b hvs hb
    apply UniformAt.pure
    have ha : IsText vs' a := Results.text.mono hvs ha
    have hleft := (ha.append (.const " ")).append (.const operator.text)
    exact (hleft.append (.const " ")).append hb
  | membership columns polarity candidates => exact Membership.uniform_render columns polarity hq
  | between column polarity low high =>
    obtain ⟨hcolumn, hbounds⟩ := List.forall_mem_append.1 hq
    obtain ⟨hlow, hhigh⟩ := List.forall_mem_append.1 hbounds
    apply uniform_between polarity
    · exact Column.uniform_render hcolumn
    · exact Scalar.uniform_render hlow
    · exact Scalar.uniform_render hhigh
  | betweenColumns value polarity low high =>
    obtain ⟨hvalue, hbounds⟩ := List.forall_mem_append.1 hq
    obtain ⟨hlow, hhigh⟩ := List.forall_mem_append.1 hbounds
    apply uniform_between polarity
    · exact Scalar.uniform_render hvalue
    · exact Column.uniform_render hlow
    · exact Column.uniform_render hhigh
  | pattern column operator patterns escaping =>
    simp only [map_pattern]
    obtain ⟨hcolumn, hpatterns⟩ := List.forall_mem_append.1 hq
    apply uniform_renderAll operator escaping hcolumn
    intro p hp q h
    exact hpatterns q (List.mem_flatMap.2 ⟨p, hp, h⟩)
  | negation inner =>
    have hinner : Uniform .text (F inner) := hs inner (List.mem_singleton.2 rfl)
    apply Uniform.map (hinner.within .negated)
    intro vs a ha
    exact isText_negated ha
  | junction operator operands =>
    simp only [map_junction]
    apply Uniform.map (uniform_renderOperands operator hs)
    intro vs as has
    -- The clauses that are left out are the same from every start.
    exact operator.isText_join (Results.each_filter has)
  | existence polarity q =>
    have hquery : q.IsUniform d F := hq q (List.mem_singleton.2 rfl)
    apply Uniform.map hquery
    intro vs a ha
    exact (IsText.const (polarity.apply "EXISTS" ++ " ")).append ha.parenthesized

end Condition

end

/-! ### Specifications -/

/-- The same compiler with placeholders of another style. -/
def Compiler.inStyle (c : Compiler) (style : PlaceholderStyle) : Compiler :=
  { c with dialect := c.dialect.inStyle style }

/-- The induction is on the levels of the specification; a query that is no selection is ruled
out at each of them. -/
theorem Spec.uniform_compile (table : List (String × Builtin)) (d : Dialect) (s : Spec)
    (hs : s.OnSubqueries Subquery.IsSelection) :
    Uniform .text fun ρ => s.compile ((Compiler.mk d (.ofBuiltins table)).inStyle ρ.style) := by
  induction s using Spec.induction_read (.ofBuiltins table) with
  | step s ih =>
    have hcompile : ∀ ρ : Start, s.compile ((Compiler.mk d (.ofBuiltins table)).inStyle ρ.style) =
        ((s.read (.ofBuiltins table)).map fun t : Spec =>
          t.compile ((Compiler.mk d (.ofBuiltins table)).inStyle ρ.style)).render
            (d.inStyle ρ.style) := fun ρ => compile_eq _ s
    simp only [hcompile]
    -- A level is read without a sink, so it is read alike from every start.
    cases hr : s.read (.ofBuiltins table) with
    | text sql => exact .const sql
    | failed e => exact .fail e
    | node x =>
      rw [hr] at ih
      obtain ⟨hsubqueries, hoperands⟩ := (hs.read table hr).of_condition
      apply Condition.uniform_render (F := fun (t : Spec) ρ =>
        t.compile ((Compiler.mk d (.ofBuiltins table)).inStyle ρ.style))
      · intro q hq
        obtain ⟨hselection, hinner⟩ := hsubqueries q hq
        apply Subquery.isUniform hselection
        intro t ht
        exact ih t (Condition.mem_nested hq ht) (hinner t ht)
      · intro t ht
        exact ih t (Condition.mem_nested_of_operand ht) (hoperands t ht)

namespace Compiler

/-- Compiling afresh is to start from the empty sink. -/
theorem compile_eq (c : Compiler) (s : Spec) :
    c.compile s = (c.compileInto s .empty).1.map fun sql => ⟨sql, (c.compileInto s .empty).2⟩ := by
  rw [compile]
  rcases c.compileInto s .empty with ⟨e | sql, sink⟩ <;> rfl

/-- **Compilation does not depend on the sink and the style**, up to the names of
placeholders.  With the forms of the library under any tokens, a specification whose
sub-queries are selections fails with one error everywhere, or it is one text with
gaps for the placeholders of the same values. -/
theorem compileInto_uniform (table : List (String × Builtin)) (d : Dialect) (s : Spec)
    (hs : s.OnSubqueries Subquery.IsSelection) :
    let c := Compiler.mk d (.ofBuiltins table)
    (∃ e, ∀ style,
        (c.inStyle style).compile s = .error e ∧
        ∀ sink, ((c.inStyle style).compileInto s sink).1 = .error e) ∨
      ∃ (values : List Value) (pieces : List (Piece values.length)), ∀ style,
        (c.inStyle style).compile s =
            .ok ⟨Piece.fillAll (Sink.empty.placeholder style values) pieces,
              Sink.empty.bindAll style values⟩ ∧
        ∀ sink : Sink, (c.inStyle style).compileInto s sink =
          (.ok (Piece.fillAll (sink.placeholder style values) pieces),
            sink.bindAll style values) := by
  intro c
  rcases Spec.uniform_compile table d s hs [] with ⟨e, he⟩ | ⟨values, a, -, ⟨pieces, ha⟩, hrun⟩
  · refine .inl ⟨e, fun style => ?_⟩
    have hstyle : ∀ sink, ((c.inStyle style).compileInto s sink).1 = .error e :=
      fun sink => he ⟨style, sink⟩
    refine ⟨?_, hstyle⟩
    rw [compile_eq, hstyle]
    rfl
  · refine .inr ⟨values, pieces, fun style => ?_⟩
    have hstyle : ∀ sink : Sink, (c.inStyle style).compileInto s sink =
        (.ok (Piece.fillAll (sink.placeholder style values) pieces),
          sink.bindAll style values) := fun sink => by
      have hstart := hrun ⟨style, sink⟩
      rw [ha] at hstart
      exact hstart
    refine ⟨?_, hstyle⟩
    rw [compile_eq, hstyle]
    rfl

/-- A sub-query and a null among the members: on a sink with the names `p1` and `4`
the placeholders are others, and the text around them is the same. -/
theorem compileInto_uniform_selection :
    let c : Compiler := ⟨⟨.standard, QuoteStyle.bare.quoter⟩, .ofBuiltins []⟩
    let filter : Spec := .condition (.membership [.name "a"] .positive
      (.members [.scalar (.value (.int 1)), .scalar .null]))
    let s : Spec := .condition (.comparison
      (.subquery (.select "t" ["n"] (some filter))) ⟨">", by decide⟩ (.value (.int 2)))
    s.OnSubqueries Subquery.IsSelection ∧
      (∃ (values : List Value) (pieces : List (Piece values.length)), ∀ style (sink : Sink),
        (c.inStyle style).compileInto s sink =
          (.ok (Piece.fillAll (sink.placeholder style values) pieces),
            sink.bindAll style values)) ∧
      ((c.inStyle .positional).compileInto s ⟨[("p1", .int 0), ("4", .int 0)]⟩).1 =
        .ok "(SELECT n FROM t WHERE (a = $3 OR a IS NULL)) > $5" := by
  intro c filter s
  have hfilter : filter.OnSubqueries Subquery.IsSelection :=
    .leaf rfl fun q hq => absurd hq (by simp [Condition.subqueries, Candidates.subqueries,
      Operand.subqueries, Scalar.subqueries])
  have hs : s.OnSubqueries Subquery.IsSelection := by
    refine .leaf rfl fun q hq => ?_
    obtain rfl := List.mem_singleton.1 hq
    exact ⟨trivial, fun t ht => List.mem_singleton.1 ht ▸ hfilter⟩
  have hcompile : ∀ c' : Compiler, filter.compile c' = Condition.render c'.dialect
      (.membership [.name "a"] .positive (.members [.scalar (.value (.int 1)), .scalar .null])) :=
    fun c' => by
      rw [Spec.compile_eq]
      show Condition.render c'.dialect (Condition.map (Spec.compile c') (.membership [.name "a"]
        .positive (.members [.scalar (.value (.int 1)), .scalar .null]))) = _
      rw [Condition.map_membership, Candidates.map_members, List.map_cons, List.map_cons,
        List.map_nil, Operand.map_scalar, Operand.map_scalar]
      rfl
  have hrun : ((c.inStyle .positional).compileInto s ⟨[("p1", .int 0), ("4", .int 0)]⟩).1 =
      .ok "(SELECT n FROM t WHERE (a = $3 OR a IS NULL)) > $5" := by
    rw [compileInto, Spec.compile_eq]
    show (Condition.render (c.inStyle .positional).dialect (.comparison
      (.subquery (.select "t" ["n"] (some (filter.compile (c.inStyle .positional)))))
      ⟨">", by decide⟩ (.value (.int 2))) _).1 = _
    rw [hcompile]
    subst c
    rfl
  refine ⟨hs, ?_, hrun⟩
  rcases compileInto_uniform [] ⟨.standard, QuoteStyle.bare.quoter⟩ s hs with
    ⟨e, he⟩ | ⟨values, pieces, h⟩
  · have herror := (he .positional).2 ⟨[("p1", .int 0), ("4", .int 0)]⟩
    rw [hrun] at herror
    exact absurd herror (by simp)
  · exact ⟨values, pieces, fun style => (h style).2⟩

end Compiler

end WhereClause
