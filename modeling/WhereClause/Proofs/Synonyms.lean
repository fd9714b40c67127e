/-
WhereClause/Proofs/Synonyms.lean

Ways to ask for the same.  That a column is among some candidates can be said by an
entry of a mapping, by an operator with the column or with a list of it alone, and by a
typed condition.  All of these are one node, and so they fail alike, with the same values
bound before the failure.  With a single candidate the node is written as a comparison.

Main results: a standard operator is compiled as what it is read as
(`Spec.compile_standard`), a membership test with one candidate is written as a
comparison (`Membership.render_single`), and so all ways to test one column agree
(`Compiler.compileInto_synonyms`).
-/
import WhereClause.Proofs.Entries
import WhereClause.Proofs.Grammar

namespace WhereClause

open Render

variable {d : Dialect} {k : String}

/-! ### Reading -/

/-- An operator is compiled as what the form of its token reads. -/
theorem Spec.compile_standard {b : Builtin} {token : String} {operands : List Spec}
    {x : Condition Spec} (ht : b.HasToken (Operator.normalize token))
    (hread : b.form.read (Operator.normalize token) operands = .ok x) :
    (operator token operands).compile ⟨d, .standard⟩ =
      (condition x).compile ⟨d, .standard⟩ := by
  have hparse : Registry.standard.parse token operands = .ok x := by
    rw [Registry.standard_eq_ofBuiltins, Registry.parse_eq, Registry.builtin?_standard.2 ht]
    exact hread
  rw [compile_of_read (c := ⟨d, .standard⟩) (read_operator hparse), compile_condition]

/-- Both tokens of membership tests are in normal form, and name their polarity. -/
theorem Polarity.normalize_apply_in (p : Polarity) :
    Operator.normalize (p.apply "IN") = p.apply "IN" := by
  cases p <;> decide +kernel

theorem Polarity.ofToken?_apply_in (p : Polarity) : ofToken? "IN" (p.apply "IN") = some p := by
  cases p <;> rfl

theorem Condition.ofMembership_name (p : Polarity) (v : Operand Spec) :
    ofMembership [.name k] (p.apply "IN") v = .ok (.membership [.name k] p (.ofOperand v)) := by
  refine Attempt.bind_eq_ok.2 ⟨p, Operator.known_eq_ok.2 ?_, rfl⟩
  rw [p.normalize_apply_in, p.ofToken?_apply_in]

/-- The column stands for itself or in a list of its own. -/
theorem Spec.compile_membership_name (hk : k ≠ "") {s : Spec}
    (hs : s = .text k ∨ s = .list [.text k]) (p : Polarity) (v : Operand Spec) :
    (operator (p.apply "IN") [s, v.spelling]).compile ⟨d, .standard⟩ =
      (condition (.membership [.name k] p (.ofOperand v))).compile ⟨d, .standard⟩ := by
  have hcolumns : Condition.readColumns (p.apply "IN") s = .ok [.name k] := by
    refine Condition.readColumns_eq_ok.2 ⟨?_, List.forall_mem_singleton.2 hk⟩
    exact hs.symm.imp id fun hs => ⟨.name k, rfl, hs⟩
  refine compile_standard (b := .membership) ?_ ?_
  · rw [p.normalize_apply_in]
    cases p with
    | positive => exact .inl rfl
    | negative => exact .inr rfl
  · rw [p.normalize_apply_in]
    refine Condition.readMembership_eq_ok.2 ⟨s, v, [.name k], p, rfl, hcolumns, ?_, rfl⟩
    rw [p.normalize_apply_in, p.ofToken?_apply_in]

/-! ### Entries of a mapping -/

/-- An entry of a mapping that asks for one of several is a membership test. -/
theorem Spec.compile_entry_membership (c : Compiler) {v : Operand Spec}
    (hv : (∃ items, v = .list items) ∨ ∃ q, v = .scalar (.subquery q)) :
    (map [(k, v.spelling)]).compile c =
      (condition (.membership [.name k] .positive (.ofOperand v))).compile c := by
  rw [compile_condition, Condition.map_membership]
  rcases hv with ⟨items, rfl⟩ | ⟨q, rfl⟩
  · have hentry := compile_entry c k (.list items)
    rw [HashTest.map_list] at hentry
    show _ = Membership.render c.dialect [.name k] .positive ((Candidates.members items).map _)
    rw [Candidates.map_members]
    exact hentry
  · exact compile_entry c k (.scalar (.subquery q))

/-! ### A single candidate -/

/-- A value or raw SQL. -/
def Scalar.IsWritten {S : Type} : Scalar S → Prop
  | .value _ | .raw _ => True
  | _ => False

/-- The comparison that a test against a single candidate is. -/
def Polarity.comparison : Polarity → String
  | .positive => "="
  | .negative => "<>"

theorem Spec.compile_comparison_name (hk : k ≠ "") (p : Polarity) (x : Scalar Spec) :
    ∃ comparison : ComparisonOperator, comparison.text = p.comparison ∧
      (operator p.comparison [.text k, .scalar x]).compile ⟨d, .standard⟩ =
        (condition (.comparison (.name k) comparison x)).compile ⟨d, .standard⟩ := by
  have hsafe : isComparison p.comparison = true := by cases p <;> decide +kernel
  have hnormal := Operator.normalize_of_isComparison hsafe
  refine ⟨⟨p.comparison, hsafe⟩, rfl, compile_standard (b := .comparison) ?_ ?_⟩
  · rw [hnormal]
    exact ⟨by cases p <;> rfl, hsafe⟩
  · rw [hnormal]
    refine Condition.readComparison_eq_ok.2 ⟨.name k, x, _, rfl, hk, ?_, rfl⟩
    rw [hnormal]
    exact dif_pos hsafe

namespace Membership

/-- **With one candidate the test is a comparison**, also if a row holds the candidate. -/
theorem render_single (column : PlainColumn) (polarity : Polarity) {m : Operand (Render String)}
    {x : Scalar (Render String)} (hm : entryUnder column m = some (.scalar x))
    (hx : x.IsWritten) :
    render d [column] polarity (.members [m]) = do
      let value ← x.render d
      return column.text d ++ " " ++ polarity.comparison ++ " " ++ value := by
  -- A list with one member is written with the operator of a comparison, for either polarity.
  have htest : ∀ member, test (column.text d) polarity [some member] =
      column.text d ++ " " ++ polarity.comparison ++ " " ++ member := by
    intro member
    cases polarity <;>
      simp only [test, listTest, List.filterMap_cons, List.filterMap_nil, id, List.any_cons,
        List.any_nil, Option.isNone_some, Bool.or_false, Polarity.comparison,
        String.append_assoc, String.append_right_inj] <;> rfl
  show (do
    let members ← [m].mapM fun m => renderMember d (polarity.apply "IN") (entryUnder column m)
    return test (column.text d) polarity members) = _
  -- A null would be asked for by its own test, and a sub-query is no comparison: both are
  -- excluded.
  rw [List.mapM_cons, List.mapM_nil, hm]
  cases x with
  | null => exact absurd hx id
  | value v =>
    show (do
      let member ← d.bind v
      return test (column.text d) polarity [some member]) = _
    simp only [htest]
    rfl
  | raw sql =>
    show (pure (test (column.text d) polarity [some sql.text]) : Render String) = _
    rw [htest]
    rfl
  | subquery q => exact absurd hx id

end Membership

/-- A test with one candidate is compiled as the comparison with it. -/
theorem Spec.compile_membership_single (hk : k ≠ "") (p : Polarity) {m : Operand Spec}
    {x : Scalar Spec} (hm : Membership.entryUnder (.name k) m = some (.scalar x))
    (hx : x.IsWritten) :
    (operator (p.apply "IN") [.text k, (Operand.list [m]).spelling]).compile ⟨d, .standard⟩ =
      (operator p.comparison [.text k, .scalar x]).compile ⟨d, .standard⟩ := by
  obtain ⟨comparison, htext, hcomparison⟩ := compile_comparison_name (d := d) hk p x
  rw [compile_membership_name hk (.inl rfl), hcomparison, compile_condition, compile_condition,
    Condition.map_comparison]
  show Membership.render d [.name k] p ((Candidates.members [m]).map _) = _
  have hentry : Membership.entryUnder (.name k) (m.map (compile ⟨d, .standard⟩)) =
      some (.scalar (x.map (compile ⟨d, .standard⟩))) := by
    rw [Membership.entryUnder_map, hm, Option.map_some, Operand.map_scalar]
  have hwritten : (x.map (compile ⟨d, .standard⟩)).IsWritten := by
    cases x <;> exact hx
  rw [Candidates.map_members, List.map_singleton, Membership.render_single _ p hentry hwritten,
    ← htext]
  rfl

/-! ### Candidates that are spelled -/

theorem Operand.eq_scalar_of_spelling {o : Operand Spec} {x : Scalar Spec}
    (h : o.spelling = .scalar x) : o = .scalar x := by
  cases o with
  | scalar y =>
    cases h
    rfl
  | list items => exact absurd h (by simp [spelling])
  | row entries => exact absurd h (by simp [spelling])

theorem Operand.exists_list_of_spelling {o : Operand Spec} {ss : List Spec}
    (h : o.spelling = .list ss) : ∃ os, o = .list os ∧ os.map spelling = ss := by
  cases o with
  | scalar x => exact absurd h (by simp [spelling])
  | list items => exact ⟨items, rfl, by rw [← spellings_eq_map]; exact Spec.list.inj h⟩
  | row entries => exact absurd h (by simp [spelling])

/-- A candidate is spelled as a scalar, or as a mapping with one under the column. -/
theorem Membership.entryUnder_of_spelling {o : Operand Spec} {x : Scalar Spec}
    (h : o.spelling = .scalar x ∨
      ∃ entries, o.spelling = .map entries ∧ entries.lookup k = some (.scalar x)) :
    entryUnder (.name k) o = some (.scalar x) := by
  -- In a mapping the candidate is looked up by the key of the column.
  rcases h with h | ⟨entries, h, hlookup⟩
  · rw [Operand.eq_scalar_of_spelling h]
    rfl
  · cases o with
    | scalar y => exact absurd h (by simp [Operand.spelling])
    | list items => exact absurd h (by simp [Operand.spelling])
    | row es =>
      rw [Operand.spelling, Spec.map.injEq] at h
      rw [← h, Operand.lookup_entries, Option.map_eq_some_iff] at hlookup
      obtain ⟨o', ho', hx⟩ := hlookup
      rw [entryUnder, PlainColumn.key, ho', Operand.eq_scalar_of_spelling hx]

/-! ### All together -/

/-- **All ways to ask for membership agree.**  The entry of a mapping, the operator with
the column or a list of it alone, and the typed condition have the same result and leave
the same sink; and where the only candidate is a value or raw SQL, the test is the
comparison with it, and its negation that for a difference. -/
theorem Compiler.compileInto_synonyms (d : Dialect) (k : String) (hk : k ≠ "") (s : Spec)
    (hs : s.IsOperand) (hset : (∃ items, s = .list items) ∨ ∃ q, s = .subquery q) :
    let c : Compiler := ⟨d, .standard⟩
    (∃ v test, s = v.spelling ∧ Condition.ofMembership [.name k] "IN" v = .ok test ∧
      ∀ spelling ∈ [Spec.map [(k, s)], .operator "IN" [.text k, s],
        .operator "IN" [.list [.text k], s]],
        ∀ sink, c.compileInto spelling sink = c.compileInto (.condition test) sink) ∧
    ∀ m x : Spec, s = .list [m] →
      (m = x ∨ ∃ entries, m = .map entries ∧ entries.lookup k = some x) →
      ((∃ v, x = .value v) ∨ ∃ sql, x = .raw sql) → ∀ sink,
        c.compileInto (.operator "IN" [.text k, s]) sink =
          c.compileInto (.operator "=" [.text k, x]) sink ∧
        c.compileInto (.operator "NOT IN" [.text k, s]) sink =
          c.compileInto (.operator "<>" [.text k, x]) sink := by
  intro c
  -- An operand without conditions is spelled by exactly one typed operand.
  obtain ⟨v, rfl⟩ := hs.exists_operand
  constructor
  · have hv : (∃ items, v = .list items) ∨ ∃ q, v = .scalar (.subquery q) := by
      cases v with
      | scalar x =>
        rcases hset with ⟨items, h⟩ | ⟨q, h⟩
        · cases h
        · cases h
          exact .inr ⟨q, rfl⟩
      | list items => exact .inl ⟨items, rfl⟩
      | row entries => rcases hset with ⟨_, h⟩ | ⟨_, h⟩ <;> cases h
    -- All spellings are read as one node, so they agree on every sink.
    refine ⟨v, _, rfl, Condition.ofMembership_name .positive v, ?_⟩
    simp only [List.forall_mem_cons, Compiler.compileInto]
    refine ⟨fun sink => ?_, fun sink => ?_, fun sink => ?_, by simp⟩
    · rw [Spec.compile_entry_membership c hv]
    · exact congrFun (Spec.compile_membership_name hk (.inl rfl) .positive v) sink
    · exact congrFun (Spec.compile_membership_name hk (.inr rfl) .positive v) sink
  · intro m x hm hentry hx sink
    obtain ⟨o, rfl, rfl⟩ : ∃ o, v = .list [o] ∧ m = o.spelling := by
      obtain ⟨os, rfl, hos⟩ := Operand.exists_list_of_spelling hm
      obtain ⟨o, rfl, rfl⟩ := List.map_eq_singleton_iff.1 hos
      exact ⟨o, rfl, rfl⟩
    obtain ⟨y, rfl, hy⟩ : ∃ y : Scalar Spec, x = .scalar y ∧ y.IsWritten := by
      rcases hx with ⟨v, rfl⟩ | ⟨sql, rfl⟩
      · exact ⟨.value v, rfl, trivial⟩
      · exact ⟨.raw ⟨sql⟩, rfl, trivial⟩
    have hunder := Membership.entryUnder_of_spelling hentry
    exact ⟨congrFun (Spec.compile_membership_single hk .positive hunder hy) sink,
      congrFun (Spec.compile_membership_single hk .negative hunder hy) sink⟩

/-- A row with one more entry is the only candidate. -/
theorem Compiler.compileInto_synonyms_row :
    let c : Compiler := ⟨⟨.standard, QuoteStyle.bare.quoter⟩, .standard⟩
    let five : Spec := .value (.int 5)
    let s : Spec := .list [.map [("name", .null), ("id", five)]]
    s.IsOperand ∧
      c.compileInto (.map [("id", s)]) .empty =
        c.compileInto (.operator "=" [.text "id", five]) .empty ∧
      c.compileInto (.operator "NOT IN" [.text "id", s]) .empty =
        c.compileInto (.operator "<>" [.text "id", five]) .empty := by
  intro c five s
  have hs : s.IsOperand := .list (List.forall_mem_singleton.2 (.map (by
    simp only [List.forall_mem_cons]
    exact ⟨.scalar _, .scalar _, by simp⟩)))
  obtain ⟨⟨v, test, -, -, hspellings⟩, hsingle⟩ := compileInto_synonyms c.dialect "id" (by decide)
    s hs (.inl ⟨_, rfl⟩)
  simp only [List.forall_mem_cons] at hspellings
  obtain ⟨hmap, hin, -⟩ := hspellings
  obtain ⟨hequal, hdiffer⟩ := hsingle _ five rfl (.inr ⟨_, rfl, rfl⟩) (.inl ⟨_, rfl⟩) .empty
  exact ⟨hs, ((hmap .empty).trans (hin .empty).symm).trans hequal, hdiffer⟩

end WhereClause
