/-
WhereClause/Proofs/Leaves.lean

Leaves: conditions that are made of columns and values only.  Whether each of these may
stand where it does is checked when the leaf is made, and again while it is written, since
the node holds its operands as they were given.  The second look finds nothing: a leaf that
was made settles to a condition in whose places nothing else can stand, and is written as
that condition (`Open.Node.render_of_settle`).  What is left to be looked at as a leaf is
written are the members of lists in a hash, which are tests of membership.

Main results: a complete condition without sub-queries is written whatever the sink
(`Condition.IsComplete.render_eq_ok`), and what makes leaves makes nodes that settle to such
conditions (`Open.Node.IsLeaf.settlesComplete`); so leaves without sub-queries are written in
every context, and what is to be read as one fails before anything is bound
(`Open.Node.leaves_written`).
-/
import WhereClause.Proofs.Open.Embedding
import WhereClause.Proofs.Render.Success
import WhereClause.Proofs.Subqueries

namespace WhereClause

variable {S T : Type}

/-! ### Without sub-queries nothing stands in a part -/

/-- A scalar that is no sub-query holds nothing. So it is for columns and patterns. -/
theorem Scalar.nested_eq_nil {s : Scalar S} (h : s.subqueries = []) : s.nested = [] := by
  cases s with
  | subquery q => exact absurd h (by simp [subqueries])
  | _ => rfl

theorem Column.nested_eq_nil {c : Column S} (h : c.subqueries = []) : c.nested = [] := by
  cases c with
  | subquery q => exact absurd h (by simp [subqueries])
  | _ => rfl

theorem Pattern.nested_eq_nil {p : Pattern S} (h : p.subqueries = []) : p.nested = [] := by
  cases p with
  | subquery q => exact absurd h (by simp [subqueries])
  | _ => rfl

namespace Condition

/-! ### Complete conditions -/

/-- A leaf without lists of members: nothing is left to be looked at as it is written. -/
def IsComplete : Condition S → Prop
  | .hash entries => ∀ e ∈ entries, ∃ s, e.2 = .scalar s
  | .comparison .. | .between .. | .betweenColumns .. | .pattern .. => True
  | .membership .. | .negation .. | .junction .. | .existence .. => False

/-- Completeness does not depend on what stands in a condition. -/
theorem IsComplete.map {c : Condition S} (f : S → T) (h : c.IsComplete) :
    (c.map f).IsComplete := by
  cases c with
  | hash entries =>
    rw [map_hash]
    intro e he
    obtain ⟨e', he', rfl⟩ := List.mem_map.1 he
    obtain ⟨s, hs⟩ := h e' he'
    exact ⟨s.map f, congrArg (HashTest.map f) hs⟩
  | pattern => rw [map_pattern]; trivial
  | comparison | between | betweenColumns => trivial
  | membership | negation | junction | existence => exact h.elim

/-- A complete condition is written if all that stands in it is. -/
theorem IsComplete.renders {c : Condition Prop} (h : c.IsComplete) (hnested : ∀ p ∈ c.nested, p) :
    c.Renders := by
  -- Only leaves are complete, and they render if their columns and values do.
  cases c with
  | hash entries =>
    intro e he
    obtain ⟨s, hs⟩ := h e he
    have hscalar : e.2.nested = s.nested := by rw [hs, HashTest.nested]
    rw [hs]
    exact fun p hp => hnested p (List.mem_flatMap.2 ⟨e, he, hscalar ▸ hp⟩)
  | comparison column operator value => exact List.forall_mem_append.1 hnested
  | between column polarity low high =>
    exact (List.forall_mem_append.1 hnested).imp id List.forall_mem_append.1
  | betweenColumns value polarity low high =>
    exact (List.forall_mem_append.1 hnested).imp id List.forall_mem_append.1
  | pattern column operator patterns escaping =>
    obtain ⟨hcolumn, hpatterns⟩ := List.forall_mem_append.1 hnested
    -- Without patterns the column is not written either.
    cases patterns with
    | nil => trivial
    | cons p ps =>
      exact ⟨hcolumn, fun p' hp' q hq => hpatterns q (List.mem_flatMap.2 ⟨p', hp', hq⟩)⟩
  | membership | negation | junction | existence => exact h.elim

/-- A leaf holds things in its sub-queries alone. -/
theorem IsComplete.nested_eq_nil {c : Condition S} (h : c.IsComplete) (hq : c.subqueries = []) :
    c.nested = [] := by
  -- What a leaf holds it holds in the sub-queries of its parts.
  cases c with
  | hash entries =>
    refine List.flatMap_eq_nil_iff.2 fun e he => ?_
    have hqe := List.flatMap_eq_nil_iff.1 hq e he
    obtain ⟨s, hs⟩ := h e he
    rw [hs] at hqe ⊢
    exact s.nested_eq_nil hqe
  | comparison column operator value =>
    obtain ⟨hcolumn, hvalue⟩ := List.append_eq_nil_iff.1 hq
    exact List.append_eq_nil_iff.2 ⟨column.nested_eq_nil hcolumn, value.nested_eq_nil hvalue⟩
  | between column polarity low high =>
    simp only [subqueries, List.append_eq_nil_iff] at hq
    simp only [nested, column.nested_eq_nil hq.1, low.nested_eq_nil hq.2.1,
      high.nested_eq_nil hq.2.2, List.append_nil]
  | betweenColumns value polarity low high =>
    simp only [subqueries, List.append_eq_nil_iff] at hq
    simp only [nested, value.nested_eq_nil hq.1, low.nested_eq_nil hq.2.1,
      high.nested_eq_nil hq.2.2, List.append_nil]
  | pattern column operator patterns escaping =>
    obtain ⟨hcolumn, hpatterns⟩ := List.append_eq_nil_iff.1 hq
    refine List.append_eq_nil_iff.2 ⟨column.nested_eq_nil hcolumn, ?_⟩
    exact List.flatMap_eq_nil_iff.2 fun p hp =>
      p.nested_eq_nil (List.flatMap_eq_nil_iff.1 hpatterns p hp)
  | membership | negation | junction | existence => exact h.elim

/-- Where nothing stands in a condition, it does not matter what that is replaced by. -/
theorem map_congr_of_nested_eq_nil {c : Condition S} (h : c.nested = []) (f g : S → T) :
    c.map f = c.map g := by
  have hfun : (fun (t : S) (_ : t ∈ c.nested) => f t) = fun t _ => g t := by
    funext t ht
    rw [h] at ht
    exact absurd ht List.not_mem_nil
  rw [map, map, hfun]

/-- **A complete condition without sub-queries is written**, always and as one text, whatever
would be done with what stands in it. -/
theorem IsComplete.render_eq_ok {c : Condition S} (h : c.IsComplete) (hq : c.subqueries = [])
    (d : Dialect) (sink : Sink) :
    ∃ sql sink', ∀ k : S → Render String, (c.map k).render d sink = (.ok sql, sink') := by
  have hnested := h.nested_eq_nil hq
  have hrenders : (c.map fun _ => True).Renders :=
    (h.map _).renders (by rw [nested_map, hnested]; simp)
  let nothing : S → Render String := fun _ => pure ""
  have hnothing : Render.SucceedsIff (c.map fun _ => True).Renders ((c.map nothing).render d) :=
    succeedsIff_render c (by simp [hnested])
  obtain ⟨sql, sink', hrun⟩ := (hnothing sink).2 hrenders
  refine ⟨sql, sink', fun k => ?_⟩
  rw [map_congr_of_nested_eq_nil hnested k nothing]
  exact hrun

/-- A hash without lists is complete. -/
theorem isComplete_hash {tests : List (String × HashTest S)}
    (h : ∀ e ∈ tests, e.2.operand.shape ≠ .list) : (hash tests).IsComplete := by
  intro e he
  cases hs : e.2 with
  | scalar s => exact ⟨s, rfl⟩
  | list items => exact absurd (by rw [hs, HashTest.operand, Operand.shape]) (h e he)

end Condition

namespace Open

/-! ### Nodes that settle -/

/-- What was made of the same operands as a condition settles to it. -/
theorem Makes.exists_settle {n : Node S} {x : Except Error (Condition S)}
    (h : Makes id (.ok n) x) : ∃ y, x = .ok y ∧ n.settle = .ok y := by
  cases h with
  | @ok _ y h =>
    rw [Condition.map_id] at h
    exact ⟨y, rfl, h⟩

namespace Node

/-- The node settles to a condition with which nothing can go wrong. -/
def SettlesComplete (n : Node S) : Prop :=
  ∃ y, n.settle = .ok y ∧ y.IsComplete ∧ y.subqueries = []

/-- Such a node is written, whatever would be done with what stands in it. -/
theorem SettlesComplete.render_eq_ok {n : Node S} (h : n.SettlesComplete) (d : Dialect)
    (sink : Sink) :
    ∃ sql sink', ∀ k : S → Render String, (n.map k).render d sink = (.ok sql, sink') := by
  obtain ⟨y, hsettle, hcomplete, hqueries⟩ := h
  obtain ⟨sql, sink', hrun⟩ := hcomplete.render_eq_ok hqueries d sink
  refine ⟨sql, sink', fun k => ?_⟩
  rw [render_of_settle (settle_map hsettle)]
  exact hrun k

section

variable {column low' high' : Column S} {token : String} {value low high values : Operand S}
  {escaping : Escaping} {n : Node S}

/-- What the constructor accepts is a scalar on the right. -/
theorem settlesComplete_ofComparison (hcolumn : column.subqueries = [])
    (hvalue : value.subqueries = []) (h : ofComparison column token value = .ok n) :
    n.SettlesComplete := by
  have hmakes := makes_ofComparison id column token value
  rw [Column.map_id, Operand.map_id, h] at hmakes
  obtain ⟨y, hy, hsettle⟩ := hmakes.exists_settle
  obtain ⟨operator, -, hy⟩ := Attempt.bind_eq_ok.1 hy
  obtain ⟨s, hs, hy⟩ := Attempt.bind_eq_ok.1 hy
  cases hy
  obtain rfl := Operand.toScalar_eq_ok.1 hs
  rw [Operand.subqueries] at hvalue
  exact ⟨_, hsettle, trivial, List.append_eq_nil_iff.2 ⟨hcolumn, hvalue⟩⟩

/-- What the constructor accepts is a scalar at either end. -/
theorem settlesComplete_ofBetween (hcolumn : column.subqueries = []) (hlow : low.subqueries = [])
    (hhigh : high.subqueries = []) (h : ofBetween column token low high = .ok n) :
    n.SettlesComplete := by
  have hmakes := makes_ofBetween id column token low high
  rw [Column.map_id, Operand.map_id, Operand.map_id, h] at hmakes
  obtain ⟨y, hy, hsettle⟩ := hmakes.exists_settle
  obtain ⟨polarity, -, hy⟩ := Attempt.bind_eq_ok.1 hy
  obtain ⟨s, hs, hy⟩ := Attempt.bind_eq_ok.1 hy
  obtain ⟨t, ht, hy⟩ := Attempt.bind_eq_ok.1 hy
  cases hy
  obtain rfl := Operand.toScalar_eq_ok.1 hs
  obtain rfl := Operand.toScalar_eq_ok.1 ht
  rw [Operand.subqueries] at hlow hhigh
  refine ⟨_, hsettle, trivial, ?_⟩
  simp only [Condition.subqueries, hcolumn, hlow, hhigh, List.append_nil]

/-- What the constructor accepts is a scalar on the left; columns are not to be checked. -/
theorem settlesComplete_ofBetweenColumns (hvalue : value.subqueries = [])
    (hlow : low'.subqueries = []) (hhigh : high'.subqueries = [])
    (h : ofBetweenColumns value token low' high' = .ok n) : n.SettlesComplete := by
  have hmakes := makes_ofBetweenColumns id value token low' high'
  rw [Operand.map_id, Column.map_id, Column.map_id, h] at hmakes
  obtain ⟨y, hy, hsettle⟩ := hmakes.exists_settle
  obtain ⟨polarity, -, hy⟩ := Attempt.bind_eq_ok.1 hy
  obtain ⟨s, hs, hy⟩ := Attempt.bind_eq_ok.1 hy
  cases hy
  obtain rfl := Operand.toScalar_eq_ok.1 hs
  rw [Operand.subqueries] at hvalue
  refine ⟨_, hsettle, trivial, ?_⟩
  simp only [Condition.subqueries, hvalue, hlow, hhigh, List.append_nil]

/-- What the constructor accepts are patterns, and there may be none. -/
theorem settlesComplete_ofPatterns (hcolumn : column.subqueries = [])
    (hvalues : values.subqueries = []) (h : ofPatterns column token values escaping = .ok n) :
    n.SettlesComplete := by
  have hmakes := makes_ofPatterns id column token values escaping
  rw [Column.map_id, Operand.map_id, h] at hmakes
  obtain ⟨y, hy, hsettle⟩ := hmakes.exists_settle
  obtain ⟨like, -, hy⟩ := Attempt.bind_eq_ok.1 hy
  obtain ⟨patterns, hpatterns, hy⟩ := Attempt.bind_eq_ok.1 hy
  cases hy
  refine ⟨_, hsettle, trivial, List.append_eq_nil_iff.2 ⟨hcolumn, ?_⟩⟩
  -- The sub-queries of the patterns would be sub-queries of the values.
  refine List.flatMap_eq_nil_iff.2 fun p hp => List.eq_nil_iff_forall_not_mem.2 fun q hq => ?_
  exact absurd (Pattern.mem_subqueries_of_mapM hpatterns hp hq) (hvalues ▸ List.not_mem_nil)

/-- What the constructor accepts are scalars and lists, and there are no lists here. -/
theorem settlesComplete_ofEntries {entries : List (String × Operand S)}
    (hentries : ∀ e ∈ entries, e.2.subqueries = [] ∧ e.2.shape ≠ .list)
    (h : ofEntries entries = .ok n) : n.SettlesComplete := by
  have hmakes := makes_ofEntries id entries
  rw [Operand.map_id_entries, h] at hmakes
  obtain ⟨y, hy, hsettle⟩ := hmakes.exists_settle
  obtain ⟨tests, rfl, rfl⟩ := Condition.ofTests_eq_ok.1 hy
  have hall (e : String × HashTest S) (he : e ∈ tests) := hentries _ (List.mem_map_of_mem he)
  refine ⟨_, hsettle, Condition.isComplete_hash fun e he => (hall e he).2,
    List.flatMap_eq_nil_iff.2 fun e he => ?_⟩
  rw [← HashTest.subqueries_operand]
  exact (hall e he).1

end

end Node

/-! ### What is read from a specification without sub-queries -/

/-- No sub-query stands in it, at any depth of lists and mappings.  A typed condition is
never read as an operand, so what stands in one does not matter. -/
inductive Spec.QueryFree : Spec → Prop
  | scalar {s : Scalar Spec} (h : s.subqueries = []) : QueryFree (.scalar s)
  | list {items : List Spec} (h : ∀ s ∈ items, QueryFree s) : QueryFree (.list items)
  | map {entries : List (String × Spec)} (h : ∀ e ∈ entries, QueryFree e.2) :
      QueryFree (.map entries)
  | node (n : Node Spec) : QueryFree (.node n)

namespace Spec

/-- The recursion over items is that of the library. -/
theorem toOperands_eq_mapM (operator : String) (ss : List Spec) :
    toOperands operator ss = ss.mapM (toOperand operator) := by
  induction ss with
  | nil => rfl
  | cons s ss ih => rw [toOperands, ih, List.mapM_cons]

theorem toEntries_eq_mapM (operator : String) (es : List (String × Spec)) :
    toEntries operator es = es.mapM fun e => do return (e.1, ← e.2.toOperand operator) := by
  induction es with
  | nil => rfl
  | cons e es ih =>
    rw [toEntries, ih, List.mapM_cons]
    cases e.2.toOperand operator <;> rfl

variable {operator : String} {s : Spec}

/-- A column that is read is a name or raw SQL. -/
theorem QueryFree.subqueries_toColumn {column : Column Spec} (h : s.QueryFree)
    (hcolumn : s.toColumn operator = .ok column) : column.subqueries = [] := by
  unfold toColumn at hcolumn
  split at hcolumn
  · split at hcolumn
    · cases hcolumn
    · cases hcolumn
      rfl
  · cases hcolumn
    rfl
  · cases h with
    | scalar h => exact absurd h (by simp [Scalar.subqueries])
  · cases hcolumn

/-- Reading an operand brings no sub-query with it. -/
theorem QueryFree.subqueries_toOperand (h : s.QueryFree) :
    ∀ o, s.toOperand operator = .ok o → o.subqueries = [] := by
  -- The induction is on how the specification is free of sub-queries, which follows its items.
  induction h with
  | scalar h =>
    intro o ho
    cases ho
    rwa [Operand.subqueries]
  | @list items _ ih =>
    intro o ho
    rw [toOperand, toOperands_eq_mapM] at ho
    obtain ⟨os, hos, ho⟩ := Attempt.bind_eq_ok.1 ho
    cases ho
    rw [Operand.subqueries, Operand.itemSubqueries_eq, List.flatMap_eq_nil_iff]
    intro o ho
    obtain ⟨t, ht, hto⟩ := Attempt.exists_of_mem_mapM hos o ho
    exact ih t ht o hto
  | @map entries _ ih =>
    intro o ho
    rw [toOperand, toEntries_eq_mapM] at ho
    obtain ⟨os, hos, ho⟩ := Attempt.bind_eq_ok.1 ho
    cases ho
    rw [Operand.subqueries, Operand.entrySubqueries_eq, List.flatMap_eq_nil_iff]
    intro o ho
    obtain ⟨e, he, heo⟩ := Attempt.exists_of_mem_mapM hos o ho
    obtain ⟨o', ho', heo⟩ := Attempt.bind_eq_ok.1 heo
    cases heo
    exact ih e he o' ho'
  -- A node is refused as an operand, so there is nothing to show.
  | node n =>
    intro o ho
    cases ho

/-- The check that the operand is a scalar changes nothing in it. -/
theorem QueryFree.subqueries_toScalar {o : Operand Spec} (h : s.QueryFree)
    (ho : s.toScalar operator = .ok o) : o.subqueries = [] := by
  obtain ⟨o', ho', hcheck⟩ := Attempt.bind_eq_ok.1 ho
  obtain ⟨_, -, hcheck⟩ := Attempt.bind_eq_ok.1 hcheck
  cases hcheck
  exact h.subqueries_toOperand _ ho'

/-- A list is read as a list, and nothing else is. -/
theorem shape_toOperand_ne_list {o : Operand Spec} (h : s.shape ≠ .list)
    (ho : s.toOperand operator = .ok o) : o.shape ≠ .list := by
  cases s with
  | scalar x =>
    cases ho
    rwa [Operand.shape]
  | list items => exact absurd rfl h
  | map entries =>
    rw [toOperand] at ho
    obtain ⟨es, -, ho⟩ := Attempt.bind_eq_ok.1 ho
    cases ho
    simp [Operand.shape]
  | node n => cases ho
  | program p => cases ho

end Spec

namespace Node

variable {operator : String} {operands : List Spec} {n : Node Spec}

/-- The operands are read first, and then the constructor is asked. -/
theorem settlesComplete_readComparison (hoperands : ∀ s ∈ operands, s.QueryFree)
    (h : readComparison operator operands = .ok n) : n.SettlesComplete := by
  unfold readComparison at h
  split at h
  · next s t =>
    obtain ⟨column, hcolumn, h⟩ := Attempt.bind_eq_ok.1 h
    obtain ⟨value, hvalue, h⟩ := Attempt.bind_eq_ok.1 h
    exact settlesComplete_ofComparison ((hoperands s (by simp)).subqueries_toColumn hcolumn)
      ((hoperands t (by simp)).subqueries_toScalar hvalue) h
  · cases h

theorem settlesComplete_readBetween (hoperands : ∀ s ∈ operands, s.QueryFree)
    (h : readBetween operator operands = .ok n) : n.SettlesComplete := by
  unfold readBetween at h
  split at h
  · next s t u =>
    obtain ⟨column, hcolumn, h⟩ := Attempt.bind_eq_ok.1 h
    obtain ⟨low, hlow, h⟩ := Attempt.bind_eq_ok.1 h
    obtain ⟨high, hhigh, h⟩ := Attempt.bind_eq_ok.1 h
    exact settlesComplete_ofBetween ((hoperands s (by simp)).subqueries_toColumn hcolumn)
      ((hoperands t (by simp)).subqueries_toScalar hlow)
      ((hoperands u (by simp)).subqueries_toScalar hhigh) h
  · cases h

theorem settlesComplete_readBetweenColumns (hoperands : ∀ s ∈ operands, s.QueryFree)
    (h : readBetweenColumns operator operands = .ok n) : n.SettlesComplete := by
  unfold readBetweenColumns at h
  split at h
  · next s t u =>
    obtain ⟨value, hvalue, h⟩ := Attempt.bind_eq_ok.1 h
    obtain ⟨low, hlow, h⟩ := Attempt.bind_eq_ok.1 h
    obtain ⟨high, hhigh, h⟩ := Attempt.bind_eq_ok.1 h
    exact settlesComplete_ofBetweenColumns ((hoperands s (by simp)).subqueries_toScalar hvalue)
      ((hoperands t (by simp)).subqueries_toColumn hlow)
      ((hoperands u (by simp)).subqueries_toColumn hhigh) h
  · cases h

/-- With an escaping or without one. -/
theorem settlesComplete_readPattern (hoperands : ∀ s ∈ operands, s.QueryFree)
    (h : readPattern operator operands = .ok n) : n.SettlesComplete := by
  have hwith {s t u : Spec} (hs : s.QueryFree) (ht : t.QueryFree)
      (h : readPatternWith operator s t u = .ok n) : n.SettlesComplete := by
    obtain ⟨column, hcolumn, h⟩ := Attempt.bind_eq_ok.1 h
    obtain ⟨values, hvalues, h⟩ := Attempt.bind_eq_ok.1 h
    obtain ⟨escaping, -, h⟩ := Attempt.bind_eq_ok.1 h
    exact settlesComplete_ofPatterns (hs.subqueries_toColumn hcolumn)
      (ht.subqueries_toOperand values hvalues) h
  unfold readPattern at h
  split at h
  · next s t => exact hwith (hoperands s (by simp)) (hoperands t (by simp)) h
  · next s t u => exact hwith (hoperands s (by simp)) (hoperands t (by simp)) h
  · cases h

/-- A mapping is read value by value, each under its own key, and then the constructor is asked.
-/
theorem settlesComplete_ofMap {entries : List (String × Spec)}
    (hentries : ∀ e ∈ entries, e.2.QueryFree ∧ e.2.shape ≠ .list) (h : ofMap entries = .ok n) :
    n.SettlesComplete := by
  obtain ⟨operands, hoperands, h⟩ := Attempt.bind_eq_ok.1 h
  refine settlesComplete_ofEntries (fun o ho => ?_) h
  obtain ⟨e, he, heo⟩ := Attempt.exists_of_mem_mapM hoperands o ho
  obtain ⟨o', ho', heo⟩ := Attempt.bind_eq_ok.1 heo
  cases heo
  obtain ⟨hfree, hshape⟩ := hentries e he
  exact ⟨hfree.subqueries_toOperand o' ho', Spec.shape_toOperand_ne_list hshape ho'⟩

/-! ### What makes leaves -/

/-- The leaves that can be made without sub-queries: by the typed constructors, from the
operands of an operator, or from a mapping; there are no lists in a hash. -/
inductive IsLeaf : Node Spec → Prop
  | comparison {column : Column Spec} {token : String} {value : Operand Spec} {n : Node Spec}
      (hcolumn : column.subqueries = []) (hvalue : value.subqueries = [])
      (h : ofComparison column token value = .ok n) : IsLeaf n
  | between {column : Column Spec} {token : String} {low high : Operand Spec} {n : Node Spec}
      (hcolumn : column.subqueries = []) (hlow : low.subqueries = [])
      (hhigh : high.subqueries = []) (h : ofBetween column token low high = .ok n) : IsLeaf n
  | betweenColumns {value : Operand Spec} {token : String} {low high : Column Spec}
      {n : Node Spec} (hvalue : value.subqueries = []) (hlow : low.subqueries = [])
      (hhigh : high.subqueries = []) (h : ofBetweenColumns value token low high = .ok n) :
      IsLeaf n
  | patterns {column : Column Spec} {token : String} {values : Operand Spec}
      {escaping : Escaping} {n : Node Spec} (hcolumn : column.subqueries = [])
      (hvalues : values.subqueries = []) (h : ofPatterns column token values escaping = .ok n) :
      IsLeaf n
  | hash {entries : List (String × Operand Spec)} {n : Node Spec}
      (hentries : ∀ e ∈ Keyed.ofPairs entries, e.2.subqueries = [] ∧ e.2.shape ≠ .list)
      (h : ofHash entries = .ok n) : IsLeaf n
  | operands {b : Builtin} {operator : String} {operands : List Spec} {n : Node Spec}
      (hb : b ∈ [Builtin.comparison, .between, .betweenColumns, .pattern])
      (hoperands : ∀ s ∈ operands, s.QueryFree) (h : reader b operator operands = .ok n) :
      IsLeaf n
  | map {entries : List (String × Spec)} {n : Node Spec}
      (hentries : ∀ e ∈ entries, e.2.QueryFree ∧ e.2.shape ≠ .list) (h : ofMap entries = .ok n) :
      IsLeaf n

/-- **What makes leaves makes nodes with which nothing can go wrong**: each of the places that
is looked at while the node is written holds what it asks for. -/
theorem IsLeaf.settlesComplete (h : n.IsLeaf) : n.SettlesComplete := by
  -- By the constructor that made the node, or by the reader that dispatch found.
  cases h with
  | comparison hcolumn hvalue h => exact settlesComplete_ofComparison hcolumn hvalue h
  | between hcolumn hlow hhigh h => exact settlesComplete_ofBetween hcolumn hlow hhigh h
  | betweenColumns hvalue hlow hhigh h =>
    exact settlesComplete_ofBetweenColumns hvalue hlow hhigh h
  | patterns hcolumn hvalues h => exact settlesComplete_ofPatterns hcolumn hvalues h
  | hash hentries h => exact settlesComplete_ofEntries hentries h
  | @operands b _ _ _ hb hoperands h =>
    cases b with
    | comparison => exact settlesComplete_readComparison hoperands h
    | between => exact settlesComplete_readBetween hoperands h
    | betweenColumns => exact settlesComplete_readBetweenColumns hoperands h
    | pattern => exact settlesComplete_readPattern hoperands h
    | membership | negation | junction | existence => exact absurd hb (by decide)
  | map hentries h => exact settlesComplete_ofMap hentries h

/-- The checks made while a node is written are there for a reason: a node need not have been
made by a constructor that made them before. -/
example : ((comparison (.name "a") "=" (.list [])).render
    ⟨.standard, QuoteStyle.bare.quoter⟩ .empty).1 =
      .error (.invalidOperand "=" (.notScalar .list)) :=
  rfl

/-- Lists in a hash are looked at as they are written. -/
example : ((hash [("a", .list [.list []])]).render
    ⟨.standard, QuoteStyle.bare.quoter⟩ .empty).1 =
      .error (.invalidOperand "IN" (.notScalar .list)) :=
  rfl

/-! ### Dispatch to leaves -/

/-- The kinds of nodes that are leaves of columns and values. -/
def leafKinds : List ConditionKind := [.comparison, .between, .betweenColumns, .pattern]

/-- The other readers make no leaves. -/
theorem kind_readMembership (h : readMembership operator operands = .ok n) :
    n.kind = .membership := by
  unfold readMembership at h
  split at h
  · obtain ⟨columns, -, h⟩ := Attempt.bind_eq_ok.1 h
    obtain ⟨values, -, h⟩ := Attempt.bind_eq_ok.1 h
    obtain ⟨polarity, -, h⟩ := Attempt.bind_eq_ok.1 h
    obtain ⟨plain, -, h⟩ := Attempt.bind_eq_ok.1 h
    cases h
    rfl
  · cases h

theorem kind_readNegation (h : readNegation operator operands = .ok n) : n.kind = .negation := by
  unfold readNegation at h
  split at h
  · cases h
    rfl
  · cases h

theorem kind_readJunction (h : readJunction operator operands = .ok n) : n.kind = .junction := by
  obtain ⟨junction, -, h⟩ := Attempt.bind_eq_ok.1 h
  cases h
  rfl

theorem kind_readExistence (h : readExistence operator operands = .ok n) :
    n.kind = .existence := by
  unfold readExistence at h
  split at h
  · obtain ⟨polarity, -, h⟩ := Attempt.bind_eq_ok.1 h
    cases h
    rfl
  · cases h
  · cases h

/-- A reader that makes a leaf of some operands makes nothing but leaves. -/
theorem mem_of_kind_reader {b : Builtin} (h : reader b operator operands = .ok n)
    (hkind : n.kind ∈ leafKinds) :
    b ∈ [Builtin.comparison, .between, .betweenColumns, .pattern] := by
  -- The other readers are told apart by the kind of node that they make.
  cases b with
  | comparison | between | betweenColumns | pattern => decide
  | membership =>
    rw [kind_readMembership h] at hkind
    exact absurd hkind (by decide)
  | negation =>
    rw [kind_readNegation h] at hkind
    exact absurd hkind (by decide)
  | junction =>
    rw [kind_readJunction h] at hkind
    exact absurd hkind (by decide)
  | existence =>
    rw [kind_readExistence h] at hkind
    exact absurd hkind (by decide)

/-- What is parsed was read by a reader of the library. -/
theorem exists_reader_of_parse (table : List (String × Builtin)) {token : String}
    (h : (Registry.ofBuiltins table).parse token operands = .ok n) :
    ∃ b, reader b (Operator.normalize token) operands = .ok n := by
  have hlookup : (Registry.ofBuiltins table).forms.lookup (Operator.normalize token) =
      (table.lookup (Operator.normalize token)).map reader := Keyed.lookup_map _ _ _
  simp only [Registry.parse, hlookup] at h
  cases hb : table.lookup (Operator.normalize token) with
  | some b =>
    rw [hb] at h
    exact ⟨b, h⟩
  -- Without an entry the token may still be a comparison.
  | none =>
    rw [hb] at h
    replace h : (if isComparison (Operator.normalize token) then
      readComparison (Operator.normalize token) operands else _) = Except.ok n := h
    split at h
    · exact ⟨.comparison, h⟩
    · cases h

/-! ### Leaves and the sink -/

/-- One call that writes what was read: if that is a node with which nothing can go wrong,
or nothing, then compiling ends, and an error leaves the sink as it was. -/
theorem endsIn_of_settlesComplete {c : Compiler} {s : Spec} {x : Except Error (Node Spec)}
    (hstep : ∀ k, c.step k s = c.write k x) (hx : ∀ n, x = .ok n → n.SettlesComplete)
    (sink : Sink) :
    ∃ result sink', c.EndsIn s sink (result, sink') ∧ ∀ e, result = .error e → sink' = sink := by
  -- One call is enough on both ways, since nothing below is compiled.
  cases x with
  | error err =>
    refine ⟨.error err, sink, ⟨1, fun overflow => ?_⟩, fun _ _ => rfl⟩
    rw [Spec.compileWithin, hstep]
    rfl
  | ok n =>
    obtain ⟨sql, sink', hrun⟩ := (hx n rfl).render_eq_ok c.dialect sink
    refine ⟨.ok sql, sink', ⟨1, fun overflow => ?_⟩, fun e he => ?_⟩
    · rw [Spec.compileWithin, hstep]
      exact hrun _
    · cases he

/-- A list has a token at its head, or nothing is read from it and nothing is bound. -/
theorem step_list_cases (c : Compiler) (items : List Spec) :
    (∃ token operands, items = .text token :: operands) ∨
      ∃ result, ∀ k sink, c.step k (.list items) sink = (result, sink) := by
  cases items with
  | nil => exact .inr ⟨.ok "", fun _ _ => rfl⟩
  | cons first rest =>
    match first with
    | .scalar (.value (.text token)) => exact .inl ⟨token, rest, rfl⟩
    | .scalar (.value (.bool _)) | .scalar (.value (.int _)) | .scalar (.value (.float _))
    | .scalar (.value (.bytes _)) | .scalar (.value (.json _))
    | .scalar .null | .scalar (.raw _) | .scalar (.subquery _)
    | .list _ | .map _ | .node _ | .program _ =>
      exact .inr ⟨.error (.unsupportedShape (.noOperator _)), fun _ _ => rfl⟩

/-- **Whatever makes leaves makes what can be written.**  A leaf without sub-queries is
written in every context, so none of its operands is refused by then.  Hence compiling a
list that is read as a leaf, or is not to be read at all, or a mapping without lists, comes to
an end, and if it ends in an error then the sink is as it was. -/
theorem leaves_written :
    (∀ n : Node Spec, n.IsLeaf → ∀ (d : Dialect) (k : Spec → Render String) (sink : Sink),
      ∃ sql sink', (n.map k).render d sink = (.ok sql, sink')) ∧
    ∀ (d : Dialect) (s : Spec), s.QueryFree →
      ((∃ items, s = .list items ∧ ∀ token operands n, items = .text token :: operands →
          Registry.standard.parse token operands = .ok n → n.kind ∈ leafKinds) ∨
        ∃ entries, s = .map entries ∧ ∀ e ∈ entries, e.2.shape ≠ .list) →
      ∀ sink, ∃ result sink', (Compiler.mk d .standard).EndsIn s sink (result, sink') ∧
        ∀ e, result = .error e → sink' = sink := by
  constructor
  · -- The constructors' checks cover every check that is made while writing.
    intro n hn d k sink
    obtain ⟨sql, sink', hrun⟩ := hn.settlesComplete.render_eq_ok d sink
    exact ⟨sql, sink', hrun k⟩
  · intro d s hfree hs sink
    obtain ⟨items, rfl, hkind⟩ | ⟨entries, rfl, hshape⟩ := hs
    · -- A list either has a token, and then it is dispatched, or is refused at once.
      obtain ⟨token, operands, rfl⟩ | ⟨result, hresult⟩ :=
        step_list_cases (Compiler.mk d .standard) items
      · have hoperands : ∀ s ∈ operands, s.QueryFree := by
          cases hfree with
          | list h => exact fun s hs => h s (List.mem_cons_of_mem _ hs)
        refine endsIn_of_settlesComplete (x := Registry.standard.parse token operands)
          (fun _ => rfl) (fun n hn => ?_) sink
        obtain ⟨b, hread⟩ := exists_reader_of_parse WhereClause.Registry.standardTable hn
        have hb := mem_of_kind_reader hread (hkind token operands n rfl hn)
        exact (IsLeaf.operands hb hoperands hread).settlesComplete
      · exact ⟨result, sink, ⟨1, fun overflow => hresult _ sink⟩, fun _ _ => rfl⟩
    · have hentries : ∀ e ∈ entries, e.2.QueryFree ∧ e.2.shape ≠ .list := by
        cases hfree with
        | map h => exact fun e he => ⟨h e he, hshape e he⟩
      -- The empty mapping places no constraint, and no hash is made of it.
      cases entries with
      | nil =>
        refine ⟨.ok "", sink, ⟨1, fun overflow => rfl⟩, fun e he => ?_⟩
        cases he
      | cons e es =>
        exact endsIn_of_settlesComplete (x := ofMap (e :: es)) (fun _ => rfl)
          (fun n hn => (IsLeaf.map hentries hn).settlesComplete) sink

/-- Under `LIKE`, a truth value among the patterns is refused as it is read, after another
value has been found good; so is a mapping of a mapping. -/
theorem leaves_written_refused :
    let d : Dialect := ⟨.standard, QuoteStyle.bare.quoter⟩
    let n : Node Spec := .pattern (.name "a") ⟨.or, .negative, true⟩
      (.list [.scalar (.value (.text "x")), .scalar (.raw ⟨"b"⟩)]) .disabled
    let s : Spec := .operator "like" [.text "a", .list [.text "x", .value (.bool true)]]
    let m : Spec := .map [("a", .value (.int 1)), ("b", .map [])]
    (∀ (k : Spec → Render String) sink, ∃ sql sink', (n.map k).render d sink = (.ok sql, sink')) ∧
      (∀ sink, (Compiler.mk d .standard).EndsIn s sink
        (.error (.invalidOperand "LIKE" (.notPattern (.value .bool))), sink)) ∧
      ∀ sink, (Compiler.mk d .standard).EndsIn m sink
        (.error (.invalidOperand "b" .mappingAsValue), sink) := by
  intro d n s m
  have hn : n.IsLeaf := by
    let values : Operand Spec := .list [.scalar (.value (.text "x")), .scalar (.raw ⟨"b"⟩)]
    have hqueries : values.subqueries = [] := by
      simp [values, Operand.subqueries, Operand.itemSubqueries, Scalar.subqueries]
    have hnormal : Operator.normalize "or not  ilike" = "OR NOT ILIKE" := by decide +kernel
    have hmade : ofPatterns (.name "a") "or not  ilike" values .disabled = .ok n := by
      rw [ofPatterns, hnormal]
      rfl
    exact .patterns rfl hqueries hmade
  have hvalue (v : Value) : (Spec.value v).QueryFree := .scalar rfl
  have hs : s.QueryFree := by
    refine .list (List.forall_mem_cons.2 ⟨hvalue _, List.forall_mem_cons.2 ⟨hvalue _, ?_⟩⟩)
    refine List.forall_mem_singleton.2 (.list ?_)
    exact List.forall_mem_cons.2 ⟨hvalue _, List.forall_mem_singleton.2 (hvalue _)⟩
  have hm : m.QueryFree := by
    refine .map (List.forall_mem_cons.2 ⟨hvalue _, List.forall_mem_singleton.2 (.map ?_)⟩)
    exact fun e he => absurd he List.not_mem_nil
  have hparse : Registry.standard.parse "like" [.text "a", .list [.text "x", .value (.bool true)]] =
      .error (.invalidOperand "LIKE" (.notPattern (.value .bool))) := by
    have hnormal : Operator.normalize "like" = "LIKE" := by decide +kernel
    rw [Registry.parse, hnormal]
    rfl
  have hlist : ∀ token operands n,
      [.text "like", .text "a", .list [.text "x", .value (.bool true)]] =
          Spec.text token :: operands →
        Registry.standard.parse token operands = .ok n → n.kind ∈ leafKinds := by
    intro token operands n hitems hn
    cases hitems
    rw [hparse] at hn
    cases hn
  have hshape : ∀ e ∈ [("a", Spec.value (.int 1)), ("b", .map [])], e.2.shape ≠ .list := by
    simp [Spec.shape, Spec.value, Scalar.shape, Value.type]
  -- The errors are seen from what is read; that nothing is bound is the theorem.
  have hunbound {t : Spec} {fault : Error} {sink : Sink}
      (hend : ∃ result sink', (Compiler.mk d .standard).EndsIn t sink (result, sink') ∧
        ∀ e, result = .error e → sink' = sink)
      (hfault : ∃ sink', (Compiler.mk d .standard).EndsIn t sink (.error fault, sink')) :
      (Compiler.mk d .standard).EndsIn t sink (.error fault, sink) := by
    obtain ⟨result, sink', hresult, hsame⟩ := hend
    obtain ⟨sink'', hfault⟩ := hfault
    cases hresult.unique hfault
    rw [hsame fault rfl] at hfault
    exact hfault
  refine ⟨fun k sink => leaves_written.1 n hn d k sink, fun sink => ?_, fun sink => ?_⟩
  · refine hunbound (leaves_written.2 d s hs (.inl ⟨_, rfl, hlist⟩) sink)
      ⟨sink, 1, fun overflow => ?_⟩
    show (Compiler.mk d .standard).write _ (Registry.standard.parse "like" _) sink = _
    rw [hparse]
    rfl
  · exact hunbound (leaves_written.2 d m hm (.inr ⟨_, rfl, hshape⟩) sink)
      ⟨sink, 1, fun overflow => rfl⟩

end Node

end Open

end WhereClause
