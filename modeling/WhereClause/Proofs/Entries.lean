/-
WhereClause/Proofs/Entries.lean

A mapping is the conjunction of its entries.  The mapping is read as a whole before
anything in it is written, and its clauses are all joined; the conjunction reads and
writes one entry after the other, and leaves out what is empty.  There is no difference
where they succeed, since whether an entry can be read does not depend on the others
and no clause of a hash is empty.

This is so with any readers in the registry and any queries in the entries.  A query may see
how much is bound already, so the two have to bind in the same order; and compiling need not
come to an end, but then it does so on neither side.

Main results: clauses that are not empty are joined as a junction is written
(`Condition.join_eq_ok`), an entry alone is written as its test (`Spec.compile_entry`, and
`Open.Compiler.step_entry` with anything in the entry), and so a mapping as the conjunction
of its entries (`Open.Compiler.endsIn_map_iff`).
-/
import WhereClause.Open.Compiler
import WhereClause.Proofs.Open.Settled
import WhereClause.Proofs.Vacuous

namespace WhereClause

open Render

/-! ### Clauses and junctions -/

/-- Steps that write no empty clause, in turn and joined: a junction of them leaves out
none, and succeeds with the same text and the same values. -/
theorem Condition.join_eq_ok {d : Dialect} {clauses : List (Render String)}
    (h : ∀ clause ∈ clauses, Yields (· ≠ "") clause) {sql : String} {sink sink' : Sink} :
    (do return Junction.and.join (← clauses.mapM id) : Render String) sink = (.ok sql, sink') ↔
      (junction .and clauses).render d sink = (.ok sql, sink') := by
  -- A junction leaves out empty texts, of which there are none here.
  have hfilter : ∀ sqls t, clauses.mapM id sink = (.ok sqls, t) →
      sqls.filter (!·.isEmpty) = sqls := by
    intro sqls t hrun
    refine Formula.filter_eq_self_of_ne_empty fun sql hsql => ?_
    obtain ⟨clause, hclause, s, s', hwritten⟩ := exists_of_mem_right (forall₂_of_mapM hrun) hsql
    exact h clause hclause s sql s' hwritten
  constructor
  · intro hrun
    obtain ⟨sqls, t, hclauses, hrun⟩ := bind_eq_ok.1 hrun
    refine bind_eq_ok.2 ⟨sqls, t, renderOperands_eq_ok.2 hclauses, ?_⟩
    rw [hfilter sqls t hclauses]
    exact hrun
  · intro hrun
    obtain ⟨sqls, t, hoperands, hrun⟩ := bind_eq_ok.1 hrun
    have hclauses := renderOperands_eq_ok.1 hoperands
    rw [hfilter sqls t hclauses] at hrun
    exact bind_eq_ok.2 ⟨sqls, t, hclauses, hrun⟩

/-! ### Entries -/

namespace Spec

/-- A mapping is read as a hash of the tests that its values spell. -/
theorem compile_tests (c : Compiler) (tests : List (String × HashTest Spec)) (hne : tests ≠ []) :
    (map (tests.map fun e => (e.1, e.2.operand.spelling))).compile c =
      (Condition.hash (tests.map fun e => (e.1, e.2.map (compile c)))).render c.dialect := by
  have hread : (map (tests.map fun e => (e.1, e.2.operand.spelling))).read c.registry =
      .node (.hash tests) := by
    obtain ⟨e, es, rfl⟩ := List.exists_cons_of_ne_nil hne
    have hmap := Condition.ofMap_eq_ok.2 ⟨e :: es, rfl, rfl⟩
    exact congrArg Reading.ofExcept hmap
  rw [compile_of_read hread, Condition.map_hash]

/-- An entry alone is written as its test, without parentheses. -/
theorem compile_entry (c : Compiler) (column : String) (test : HashTest Spec) :
    (map [(column, test.operand.spelling)]).compile c =
      (test.map (compile c)).render c.dialect column := by
  rw [← List.map_singleton (f := fun e : String × HashTest Spec => (e.1, e.2.operand.spelling))
    (a := (column, test)), compile_tests c _ (by simp)]
  show (do return Junction.and.join (← [_].mapM _)) = _
  simp only [List.mapM_cons, List.mapM_nil, bind_assoc, pure_bind, Junction.join, bind_pure]

end Spec

namespace Open

variable {c : Compiler} {k : Spec → Render String} {sql : String} {sink sink' : Sink}

/-! ### Entries with anything in them -/

/-- No clause of a hash is empty: what is not refused is written as a test. -/
theorem yields_renderEntry (d : Dialect) (column : String) (o : Operand (Render String)) :
    Yields (· ≠ "") (renderEntry d column o) := by
  have htest (test : HashTest (Render String)) :
      Yields (· ≠ "") (renderEntry d column test.operand) := by
    rw [renderEntry_operand]
    exact HashTest.yields_render d column test
  cases o with
  | scalar s => exact htest (.scalar s)
  | list items => exact htest (.list items)
  | row entries =>
    intro s sql t hrun
    exact absurd (congrArg Prod.fst hrun) (by simp [renderEntry, Render.fail])

/-- What is written was not refused when the hash was made. -/
theorem checkEntry_of_renderEntry {d : Dialect} {column : String} {f : Spec → Render String}
    {o : Operand Spec} (h : renderEntry d column (o.map f) sink = (.ok sql, sink')) :
    checkEntry column o = .ok () := by
  cases o with
  | row entries =>
    rw [Operand.map_row] at h
    exact absurd (congrArg Prod.fst h) (by simp [renderEntry, Render.fail])
  | _ => rfl

/-- The operand of an entry, under its column. -/
def Spec.toEntry (e : String × Spec) : Except Error (String × Operand Spec) := do
  return (e.1, ← e.2.toOperand e.1)

namespace Compiler

/-- The clauses of a hash, each to be written by itself. -/
def entryClauses (c : Compiler) (k : Spec → Render String)
    (operands : List (String × Operand Spec)) : List (Render String) :=
  operands.map fun o => renderEntry c.dialect o.1 (o.2.map k)

/-- A hash that was not refused is written as its clauses, joined. -/
theorem write_ofEntries {operands : List (String × Operand Spec)}
    (h : operands.forM (fun o => checkEntry o.1 o.2) = .ok ()) :
    c.write k (Node.ofEntries operands) =
      (do return Junction.and.join (← (c.entryClauses k operands).mapM id) : Render String) := by
  rw [Node.ofEntries, h, entryClauses, List.mapM_map]
  show (do return Junction.and.join (← (operands.map _).mapM _) : Render String) = _
  rw [List.mapM_map]
  rfl

/-- **An entry alone** is written as its test, without parentheses.  A row is refused on both
sides, here as it is read and there as it is written. -/
theorem step_entry {e : String × Spec} {o : String × Operand Spec} (h : Spec.toEntry e = .ok o) :
    c.step k (.map [e]) = renderEntry c.dialect o.1 (o.2.map k) := by
  have hmap : Node.ofMap [e] = Node.ofEntries [o] := by
    show ([e].mapM Spec.toEntry >>= Node.ofEntries) = _
    rw [List.mapM_cons, h]
    rfl
  -- With one clause there is nothing to join.
  have halone (hcheck : checkEntry o.1 o.2 = .ok ()) : c.write k (Node.ofEntries [o]) =
      renderEntry c.dialect o.1 (o.2.map k) := by
    rw [write_ofEntries (Attempt.forM_eq_ok.2 (List.forall_mem_singleton.2 hcheck)), entryClauses]
    simp only [List.map_cons, List.map_nil, List.mapM_cons, List.mapM_nil, bind_assoc, pure_bind,
      Junction.join, bind_pure, id]
  show c.write k (Node.ofMap [e]) = _
  rw [hmap]
  obtain ⟨column, o⟩ := o
  cases o with
  | row entries =>
    rw [Operand.map_row]
    rfl
  | scalar s => exact halone rfl
  | list items => exact halone rfl

/-- A mapping is written if all its entries can be read, and as their clauses are in turn. -/
theorem step_map_eq_ok {entries : List (String × Spec)} :
    c.step k (.map entries) sink = (.ok sql, sink') ↔
      ∃ operands, entries.mapM Spec.toEntry = .ok operands ∧
        (do return Junction.and.join (← (c.entryClauses k operands).mapM id) : Render String) sink =
          (.ok sql, sink') := by
  have hrefused (e : Error) : (Render.fail e : Render String) sink ≠ (.ok sql, sink') :=
    fun h => absurd (congrArg Prod.fst h) (by simp [Render.fail])
  cases entries with
  | nil =>
    constructor
    · exact fun h => ⟨[], rfl, h⟩
    · rintro ⟨operands, hread, hrun⟩
      cases hread
      exact hrun
  | cons e es =>
    show c.write k ((e :: es).mapM Spec.toEntry >>= Node.ofEntries) sink = _ ↔ _
    constructor
    · intro hrun
      cases hread : (e :: es).mapM Spec.toEntry with
      | error err =>
        rw [hread] at hrun
        exact absurd hrun (hrefused err)
      | ok operands =>
        refine ⟨operands, rfl, ?_⟩
        rw [hread] at hrun
        replace hrun : c.write k (Node.ofEntries operands) sink = (.ok sql, sink') := hrun
        cases hcheck : operands.forM fun o => checkEntry o.1 o.2 with
        | error err =>
          rw [Node.ofEntries, hcheck] at hrun
          exact absurd hrun (hrefused err)
        | ok u => rwa [write_ofEntries hcheck] at hrun
    · rintro ⟨operands, hread, hrun⟩
      -- What was written passed its check, so the checks of the whole hash pass.
      have hcheck : operands.forM (fun o => checkEntry o.1 o.2) = .ok () := by
        refine Attempt.forM_eq_ok.2 fun o ho => ?_
        obtain ⟨sqls, t, hclauses, -⟩ := bind_eq_ok.1 hrun
        obtain ⟨clause, -, s, s', hclause⟩ := exists_of_mem_left (forall₂_of_mapM hclauses)
          (List.mem_map_of_mem ho)
        exact checkEntry_of_renderEntry hclause
      rw [hread]
      show c.write k (Node.ofEntries operands) sink = _
      rwa [write_ofEntries hcheck]

/-- A conjunction of entries is written if all of them can be read, and as their clauses are
in turn. -/
theorem step_conjunction_eq_ok {entries : List (String × Spec)} :
    c.step (c.step k) (.node (.junction .and (entries.map fun e => .map [e]))) sink =
        (.ok sql, sink') ↔
      ∃ operands, entries.mapM Spec.toEntry = .ok operands ∧
        (Condition.junction .and (c.entryClauses k operands)).render c.dialect sink =
          (.ok sql, sink') := by
  have hnode : c.step (c.step k) (.node (.junction .and (entries.map fun e => .map [e]))) =
      (Condition.junction .and (entries.map fun e => c.step k (.map [e]))).render c.dialect := by
    show (Condition.junction .and ((entries.map _).map _)).render c.dialect = _
    rw [List.map_map]
    rfl
  have hclauses {operands : List (String × Operand Spec)}
      (h : entries.mapM Spec.toEntry = .ok operands) :
      c.entryClauses k operands = entries.map fun e => c.step k (.map [e]) :=
    Attempt.map_eq_of_mapM (fun _ _ he => (step_entry he).symm) h
  rw [hnode]
  constructor
  · intro hrun
    -- Each of the operands was written on some sink, so it was read.
    have hread : ∃ operands, entries.mapM Spec.toEntry = .ok operands := by
      refine Attempt.exists_mapM_eq_ok.2 fun e he => ?_
      obtain ⟨sqls, t, hoperands, -⟩ := bind_eq_ok.1 hrun
      obtain ⟨clause, -, s, s', hclause⟩ :=
        exists_of_mem_left (forall₂_of_mapM (Condition.renderOperands_eq_ok.1 hoperands))
          (List.mem_map_of_mem he)
      obtain ⟨operands, hread, -⟩ := step_map_eq_ok.1 hclause
      exact Attempt.exists_mapM_eq_ok.1 ⟨operands, hread⟩ e (List.mem_singleton_self e)
    obtain ⟨operands, hread⟩ := hread
    exact ⟨operands, hread, by rwa [hclauses hread]⟩
  · rintro ⟨operands, hread, hrun⟩
    rwa [hclauses hread] at hrun

/-! ### Mappings and conjunctions -/

/-- What one call makes of a mapping, two make of the conjunction of its entries. -/
theorem step_map_iff {entries : List (String × Spec)} :
    c.step k (.map entries) sink = (.ok sql, sink') ↔
      c.step (c.step k) (.node (.junction .and (entries.map fun e => .map [e]))) sink =
        (.ok sql, sink') := by
  have hyields (operands : List (String × Operand Spec)) :
      ∀ clause ∈ c.entryClauses k operands, Yields (· ≠ "") clause := by
    intro clause hclause
    obtain ⟨o, -, rfl⟩ := List.mem_map.1 hclause
    exact yields_renderEntry c.dialect o.1 _
  rw [step_map_eq_ok, step_conjunction_eq_ok]
  exact exists_congr fun operands =>
    and_congr_right fun _ => Condition.join_eq_ok (hyields operands)

/-- **A mapping is the conjunction of its entries**, with any readers and any queries.  One is
written exactly if the other is, as the same text and with the same values bound. -/
theorem endsIn_map_iff (c : Compiler) (entries : List (String × Spec)) (sink : Sink)
    (sql : String) (sink' : Sink) :
    c.EndsIn (.map entries) sink (.ok sql, sink') ↔
      c.EndsIn (.node (.junction .and (entries.map fun e => .map [e]))) sink (.ok sql, sink') := by
  constructor
  · intro h
    obtain ⟨n, hn⟩ := h.at_least
    refine ⟨n + 2, fun overflow => ?_⟩
    have hmap := hn 1 overflow
    rw [Nat.add_comm] at hmap
    exact step_map_iff.1 hmap
  · intro h
    obtain ⟨n, hn⟩ := h.at_least
    refine ⟨n + 1, fun overflow => ?_⟩
    have hjunction := hn 2 overflow
    rw [Nat.add_comm] at hjunction
    exact step_map_iff.2 hjunction

end Compiler

end Open

end WhereClause
