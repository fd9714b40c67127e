/-
WhereClause/Proofs/Subqueries.lean

The sub-queries of a specification, those inside sub-queries included.  Reading
brings none with it: with the forms of the library, what stands in a node stood in
the specification that it was read from.

Main results: the sub-queries of a node hold only what stands in the node
(`Condition.mem_nested`), and what is known of all sub-queries of a specification
is known of all that is read from it (`Spec.OnSubqueries.read`).
-/
import WhereClause.Proofs.Roles
import WhereClause.Proofs.Spelling

namespace WhereClause

variable {S : Type} {q : Subquery S} {t : S}

/-! ### The sub-queries in a node -/

/-- A scalar is a sub-query or has none. -/
def Scalar.subqueries : Scalar S → List (Subquery S)
  | .subquery q => [q]
  | _ => []

/-- A column is a sub-query or has none. -/
def Column.subqueries : Column S → List (Subquery S)
  | .subquery q => [q]
  | _ => []

namespace Operand

mutual

/-- From left to right, at any depth of lists and rows; those inside sub-queries are not among
them. -/
def subqueries : Operand S → List (Subquery S)
  | .scalar s => s.subqueries
  | .list items => itemSubqueries items
  | .row entries => entrySubqueries entries

/-- Those of the members of a list. -/
def itemSubqueries : List (Operand S) → List (Subquery S)
  | [] => []
  | o :: os => o.subqueries ++ itemSubqueries os

/-- Those of the entries of a row. -/
def entrySubqueries : List (String × Operand S) → List (Subquery S)
  | [] => []
  | (_, o) :: es => o.subqueries ++ entrySubqueries es

end

/-- The recursion over members is that of the library. -/
theorem itemSubqueries_eq (os : List (Operand S)) :
    itemSubqueries os = os.flatMap (·.subqueries) := by
  induction os with
  | nil => rfl
  | cons o os ih => rw [itemSubqueries, ih, List.flatMap_cons]

theorem entrySubqueries_eq (es : List (String × Operand S)) :
    entrySubqueries es = es.flatMap (·.2.subqueries) := by
  induction es with
  | nil => rfl
  | cons e es ih => rw [entrySubqueries, ih, List.flatMap_cons]

end Operand

/-- What a column must be among is a sub-query, or its members may hold some. -/
def Candidates.subqueries : Candidates S → List (Subquery S)
  | .members items => items.flatMap (·.subqueries)
  | .subquery q => [q]

/-- The sub-queries in the value of an entry. -/
def HashTest.subqueries : HashTest S → List (Subquery S)
  | .scalar s => s.subqueries
  | .list items => items.flatMap (·.subqueries)

/-- A pattern is a sub-query or has none. -/
def Pattern.subqueries : Pattern S → List (Subquery S)
  | .subquery q => [q]
  | _ => []

namespace Condition

/-- The sub-queries in the parts of a node. Negations and junctions have none of their own,
since what they hold are conditions. -/
def subqueries : Condition S → List (Subquery S)
  | .hash entries => entries.flatMap (·.2.subqueries)
  | .comparison column _ value => column.subqueries ++ value.subqueries
  | .membership _ _ candidates => candidates.subqueries
  | .between column _ low high => column.subqueries ++ (low.subqueries ++ high.subqueries)
  | .betweenColumns value _ low high => value.subqueries ++ (low.subqueries ++ high.subqueries)
  | .pattern column _ patterns _ => column.subqueries ++ patterns.flatMap (·.subqueries)
  | .existence _ q => [q]
  | .negation _ | .junction _ _ => []

/-- The conditions that a negation or a junction is made of. -/
def operands : Condition S → List S
  | .negation inner => [inner]
  | .junction _ operands => operands
  | _ => []

end Condition

/-! ### What stands in the sub-queries of a node stands in the node -/

/-- A sub-query is all that a scalar holds. -/
theorem Scalar.mem_nested {s : Scalar S} (hq : q ∈ s.subqueries) (ht : t ∈ q.nested) :
    t ∈ s.nested := by
  cases s with
  | subquery q' => exact List.mem_singleton.1 hq ▸ ht
  | _ => exact absurd hq (by simp [subqueries])

theorem Column.mem_nested {c : Column S} (hq : q ∈ c.subqueries) (ht : t ∈ q.nested) :
    t ∈ c.nested := by
  cases c with
  | subquery q' => exact List.mem_singleton.1 hq ▸ ht
  | _ => exact absurd hq (by simp [subqueries])

namespace Operand

mutual

/-- The induction is on the operand, with one statement for it, its members and its entries. -/
theorem mem_nested : ∀ {o : Operand S}, q ∈ o.subqueries → t ∈ q.nested → t ∈ o.nested
  | .scalar s, hq, ht => by
    rw [nested]
    rw [subqueries] at hq
    exact s.mem_nested hq ht
  | .list items, hq, ht => by
    rw [nested]
    rw [subqueries] at hq
    exact mem_nestedItems_of_subquery hq ht
  | .row entries, hq, ht => by
    rw [nested]
    rw [subqueries] at hq
    exact mem_nestedEntries_of_subquery hq ht

theorem mem_nestedItems_of_subquery : ∀ {os : List (Operand S)},
    q ∈ itemSubqueries os → t ∈ q.nested → t ∈ nestedItems os
  | [], hq, _ => by simp [itemSubqueries] at hq
  | o :: os, hq, ht => by
    rw [nestedItems, List.mem_append]
    rw [itemSubqueries, List.mem_append] at hq
    exact hq.imp (mem_nested · ht) (mem_nestedItems_of_subquery · ht)

theorem mem_nestedEntries_of_subquery : ∀ {es : List (String × Operand S)},
    q ∈ entrySubqueries es → t ∈ q.nested → t ∈ nestedEntries es
  | [], hq, _ => by simp [entrySubqueries] at hq
  | (k, o) :: es, hq, ht => by
    rw [nestedEntries, List.mem_append]
    rw [entrySubqueries, List.mem_append] at hq
    exact hq.imp (mem_nested · ht) (mem_nestedEntries_of_subquery · ht)

end

end Operand

/-- Members are operands, so what is in their sub-queries is in them. -/
theorem Candidates.mem_nested {c : Candidates S} (hq : q ∈ c.subqueries) (ht : t ∈ q.nested) :
    t ∈ c.nested := by
  cases c with
  | members items =>
    rw [subqueries, ← Operand.itemSubqueries_eq] at hq
    exact Operand.mem_nestedItems_of_subquery hq ht
  | subquery q' => exact List.mem_singleton.1 hq ▸ ht

theorem HashTest.mem_nested {e : HashTest S} (hq : q ∈ e.subqueries) (ht : t ∈ q.nested) :
    t ∈ e.nested := by
  cases e with
  | scalar s => exact s.mem_nested hq ht
  | list items =>
    rw [subqueries, ← Operand.itemSubqueries_eq] at hq
    exact Operand.mem_nestedItems_of_subquery hq ht

theorem Pattern.mem_nested {p : Pattern S} (hq : q ∈ p.subqueries) (ht : t ∈ q.nested) :
    t ∈ p.nested := by
  cases p with
  | subquery q' => exact List.mem_singleton.1 hq ▸ ht
  | _ => exact absurd hq (by simp [subqueries])

/-- **What stands in the sub-queries of a node stands in the node**, so it is smaller, and an
induction reaches it. -/
theorem Condition.mem_nested {c : Condition S} (hq : q ∈ c.subqueries) (ht : t ∈ q.nested) :
    t ∈ c.nested := by
  cases c with
  | hash entries =>
    obtain ⟨e, he, hq⟩ := List.mem_flatMap.1 hq
    exact List.mem_flatMap.2 ⟨e, he, e.2.mem_nested hq ht⟩
  | comparison column operator value =>
    exact List.mem_append.2 <| (List.mem_append.1 hq).imp
      (column.mem_nested · ht) (value.mem_nested · ht)
  | membership columns polarity candidates => exact candidates.mem_nested hq ht
  | between column polarity low high =>
    simp only [subqueries, nested, List.mem_append] at hq ⊢
    exact hq.imp (column.mem_nested · ht) (.imp (low.mem_nested · ht) (high.mem_nested · ht))
  | betweenColumns value polarity low high =>
    simp only [subqueries, nested, List.mem_append] at hq ⊢
    exact hq.imp (value.mem_nested · ht) (.imp (low.mem_nested · ht) (high.mem_nested · ht))
  | pattern column operator patterns escaping =>
    refine List.mem_append.2 <| (List.mem_append.1 hq).imp (column.mem_nested · ht) fun hq => ?_
    obtain ⟨p, hp, hq⟩ := List.mem_flatMap.1 hq
    exact List.mem_flatMap.2 ⟨p, hp, p.mem_nested hq ht⟩
  | negation inner => exact absurd hq List.not_mem_nil
  | junction operator operands => exact absurd hq List.not_mem_nil
  | existence polarity q' => exact List.mem_singleton.1 hq ▸ ht

/-- What is negated or joined stands in the node. -/
theorem Condition.mem_nested_of_operand {c : Condition S} (ht : t ∈ c.operands) :
    t ∈ c.nested := by
  cases c with
  | negation inner => exact ht
  | junction operator operands => exact ht
  | _ => exact absurd ht List.not_mem_nil

/-! ### A condition on all sub-queries -/

/-- All sub-queries are as `Q` says, at any depth. -/
inductive Spec.OnSubqueries (Q : Subquery Spec → Prop) : Spec → Prop
  | scalar {x : Scalar Spec} (h : ∀ q ∈ x.subqueries, Q q)
      (hinner : ∀ q ∈ x.subqueries, ∀ t ∈ q.nested, OnSubqueries Q t) :
      OnSubqueries Q (.scalar x)
  | list {ss : List Spec} (h : ∀ s ∈ ss, OnSubqueries Q s) : OnSubqueries Q (.list ss)
  | map {es : List (String × Spec)} (h : ∀ e ∈ es, OnSubqueries Q e.2) : OnSubqueries Q (.map es)
  | condition {c : Condition Spec} (h : ∀ q ∈ c.subqueries, Q q)
      (hinner : ∀ q ∈ c.subqueries, ∀ t ∈ q.nested, OnSubqueries Q t)
      (hs : ∀ t ∈ c.operands, OnSubqueries Q t) : OnSubqueries Q (.condition c)

/-- Less may be asked of the sub-queries. The induction is on the derivation, since a sub-query
is followed into its own conditions. -/
theorem Spec.OnSubqueries.mono {P Q : Subquery Spec → Prop} (hPQ : ∀ q, P q → Q q) {s : Spec}
    (h : s.OnSubqueries P) : s.OnSubqueries Q := by
  induction h with
  | scalar h _ ih => exact .scalar (fun q hq => hPQ q (h q hq)) ih
  | list _ ih => exact .list ih
  | map _ ih => exact .map ih
  | condition h _ _ ih ihs => exact .condition (fun q hq => hPQ q (h q hq)) ih ihs

/-- A sub-query that is as `Q` says, and so are those inside. -/
def Subquery.Satisfies (Q : Subquery Spec → Prop) (q : Subquery Spec) : Prop :=
  Q q ∧ ∀ t ∈ q.nested, t.OnSubqueries Q

variable {Q : Subquery Spec → Prop}

/-- A scalar in a specification is known by its sub-query alone. -/
theorem Spec.OnSubqueries.of_scalar {x : Scalar Spec}
    (h : (Spec.scalar x).OnSubqueries Q) : ∀ q ∈ x.subqueries, q.Satisfies Q := by
  cases h with
  | scalar h hinner => exact fun q hq => ⟨h q hq, hinner q hq⟩

/-- What is known of a typed condition is known of its sub-queries and of its operands. -/
theorem Spec.OnSubqueries.of_condition {c : Condition Spec}
    (h : (Spec.condition c).OnSubqueries Q) :
    (∀ q ∈ c.subqueries, q.Satisfies Q) ∧ ∀ t ∈ c.operands, t.OnSubqueries Q := by
  cases h with
  | condition h hinner hs => exact ⟨fun q hq => ⟨h q hq, hinner q hq⟩, hs⟩

/-- The sub-query of a column was one in the specification that spells it. -/
theorem Column.satisfies {c : Column Spec} (h : c.spelling.OnSubqueries Q) :
    ∀ q ∈ c.subqueries, q.Satisfies Q := by
  cases c with
  | subquery q' => exact h.of_scalar
  | _ => exact fun q hq => absurd hq List.not_mem_nil

namespace Operand

mutual

/-- The induction is on the operand: to spell it is to write down its sub-queries, no more and
no less. -/
theorem satisfies : ∀ {o : Operand Spec}, o.spelling.OnSubqueries Q →
    ∀ q ∈ o.subqueries, q.Satisfies Q
  | .scalar s, h, q, hq => by
    rw [subqueries] at hq
    rw [spelling] at h
    exact h.of_scalar q hq
  | .list items, h, q, hq => by
    rw [subqueries] at hq
    rw [spelling] at h
    cases h with
    | list h => exact satisfies_items h q hq
  | .row entries, h, q, hq => by
    rw [subqueries] at hq
    rw [spelling] at h
    cases h with
    | map h => exact satisfies_entries h q hq

/-- Members are spelled one by one. -/
theorem satisfies_items : ∀ {os : List (Operand Spec)}, (∀ s ∈ spellings os, s.OnSubqueries Q) →
    ∀ q ∈ itemSubqueries os, q.Satisfies Q
  | [], _, q, hq => by simp [itemSubqueries] at hq
  | o :: os, h, q, hq => by
    rw [spellings, List.forall_mem_cons] at h
    rw [itemSubqueries, List.mem_append] at hq
    exact hq.elim (satisfies h.1 q) (satisfies_items h.2 q)

/-- Entries are spelled one by one. -/
theorem satisfies_entries : ∀ {es : List (String × Operand Spec)},
    (∀ e ∈ entrySpellings es, e.2.OnSubqueries Q) →
    ∀ q ∈ entrySubqueries es, q.Satisfies Q
  | [], _, q, hq => by simp [entrySubqueries] at hq
  | (k, o) :: es, h, q, hq => by
    rw [entrySpellings, List.forall_mem_cons] at h
    rw [entrySubqueries, List.mem_append] at hq
    exact hq.elim (satisfies h.1 q) (satisfies_entries h.2 q)

end

end Operand

/-! ### Reading -/

/-- A single operand has the sub-queries of the list that it stands for. -/
theorem Operand.itemSubqueries_members (o : Operand S) :
    itemSubqueries o.members = o.subqueries := by
  cases o <;> simp [members, itemSubqueries, subqueries]

/-- To take an operand as candidates keeps its sub-queries. -/
theorem Candidates.subqueries_ofOperand (o : Operand S) :
    (Candidates.ofOperand o).subqueries = o.subqueries := by
  unfold ofOperand
  split
  · rw [subqueries, Operand.subqueries, Scalar.subqueries]
  · rw [subqueries, ← Operand.itemSubqueries_eq, Operand.itemSubqueries_members]

/-- To take an operand as a test keeps its sub-queries. -/
theorem HashTest.subqueries_operand (e : HashTest S) : e.operand.subqueries = e.subqueries := by
  cases e with
  | scalar s => rw [operand, subqueries, Operand.subqueries]
  | list items => rw [operand, subqueries, Operand.subqueries, Operand.itemSubqueries_eq]

/-- A sub-query as a pattern is the operand itself. -/
theorem Pattern.subqueries_ofOperand {operator : String} {o : Operand S} {p : Pattern S}
    (h : Pattern.ofOperand operator o = .ok p) : p.subqueries = o.subqueries := by
  unfold ofOperand at h
  split at h
  · split at h
    · cases h
      rw [subqueries, Operand.subqueries, Scalar.subqueries] <;> simp
    · simp at h
  · cases h
    rw [subqueries, Operand.subqueries, Scalar.subqueries] <;> simp
  · cases h
    rw [subqueries, Operand.subqueries, Scalar.subqueries]
  · simp at h

/-- The sub-queries of patterns are those of the values. -/
theorem Pattern.mem_subqueries_of_mapM {operator : String} {o : Operand S}
    {patterns : List (Pattern S)} (h : o.members.mapM (Pattern.ofOperand operator) = .ok patterns)
    {p : Pattern S} (hp : p ∈ patterns) {q : Subquery S} (hq : q ∈ p.subqueries) :
    q ∈ o.subqueries := by
  obtain ⟨m, hm, hmp⟩ := Attempt.exists_of_mem_mapM h p hp
  rw [Pattern.subqueries_ofOperand hmp] at hq
  rw [← Operand.itemSubqueries_members, Operand.itemSubqueries_eq]
  exact List.mem_flatMap.2 ⟨m, hm, hq⟩

namespace Spec.OnSubqueries

variable {operator : String} {operands : List Spec} {c : Condition Spec}

/-- What has to be shown of a node that was read: all its sub-queries, and all that it negates
or joins. -/
theorem of_subqueries {operands : List Spec} (hoperands : c.operands = operands)
    (h : ∀ q ∈ c.subqueries, q.Satisfies Q) (hs : ∀ t ∈ operands, t.OnSubqueries Q) :
    (Spec.condition c).OnSubqueries Q :=
  .condition (fun q hq => (h q hq).1) (fun q hq => (h q hq).2) (hoperands ▸ hs)

/-- A node that is made of no conditions. -/
theorem leaf (hleaf : c.operands = []) (h : ∀ q ∈ c.subqueries, q.Satisfies Q) :
    (Spec.condition c).OnSubqueries Q :=
  .of_subqueries hleaf h fun _ ht => absurd ht List.not_mem_nil

/-- The escaping has no sub-query, so nothing is asked of it. -/
theorem readPatternWith {column values escaping : Spec} (hcolumn : column.OnSubqueries Q)
    (hvalues : values.OnSubqueries Q)
    (h : Condition.readPatternWith operator column values escaping = .ok c) :
    (Spec.condition c).OnSubqueries Q := by
  obtain ⟨column', o, escaping', like, patterns, rfl, rfl, -, -, -, hpatterns, rfl⟩ :=
    Condition.readPatternWith_eq_ok.1 h
  refine .leaf rfl fun q hq => ?_
  rcases List.mem_append.1 hq with hq | hq
  · exact Column.satisfies hcolumn q hq
  · obtain ⟨p, hp, hq⟩ := List.mem_flatMap.1 hq
    exact Operand.satisfies hvalues q (Pattern.mem_subqueries_of_mapM hpatterns hp hq)

/-- The node of a form has the sub-queries of its operands. -/
theorem form (b : Builtin) (hs : ∀ s ∈ operands, s.OnSubqueries Q)
    (h : b.form.read operator operands = .ok c) : (Spec.condition c).OnSubqueries Q := by
  -- A leaf has its sub-queries in it; a junction or a negation has none of its own, and its
  -- operands are conditions.
  cases b with
  | comparison =>
    obtain ⟨column, x, comparison, rfl, -, -, rfl⟩ := Condition.readComparison_eq_ok.1 h
    refine .leaf rfl fun q hq => (List.mem_append.1 hq).elim ?_ ?_
    · exact Column.satisfies (hs _ (by simp)) q
    · exact (hs (.scalar x) (by simp)).of_scalar q
  | membership =>
    obtain ⟨s, o, columns, polarity, rfl, -, -, rfl⟩ := Condition.readMembership_eq_ok.1 h
    refine .leaf rfl fun q hq => ?_
    -- Columns that are named or raw hold no sub-query.
    have hqo : q ∈ (Candidates.ofOperand o).subqueries := hq
    rw [Candidates.subqueries_ofOperand] at hqo
    exact Operand.satisfies (hs o.spelling (by simp)) q hqo
  | between =>
    obtain ⟨column, low, high, polarity, rfl, -, -, rfl⟩ := Condition.readBetween_eq_ok.1 h
    refine .leaf rfl fun q hq => (List.mem_append.1 hq).elim ?_ fun hq =>
      (List.mem_append.1 hq).elim ?_ ?_
    · exact Column.satisfies (hs _ (by simp)) q
    · exact (hs (.scalar low) (by simp)).of_scalar q
    · exact (hs (.scalar high) (by simp)).of_scalar q
  | betweenColumns =>
    obtain ⟨x, low, high, polarity, rfl, -, -, -, rfl⟩ :=
      Condition.readBetweenColumns_eq_ok.1 h
    refine .leaf rfl fun q hq => (List.mem_append.1 hq).elim ?_ fun hq =>
      (List.mem_append.1 hq).elim ?_ ?_
    · exact (hs (.scalar x) (by simp)).of_scalar q
    · exact Column.satisfies (hs low.spelling (by simp)) q
    · exact Column.satisfies (hs high.spelling (by simp)) q
  | pattern =>
    obtain ⟨column, values, escaping, rfl | ⟨rfl, rfl⟩, h⟩ := Condition.readPattern_eq_ok.1 h
    · exact .readPatternWith (hs column (by simp)) (hs values (by simp)) h
    · exact .readPatternWith (hs column (by simp)) (hs values (by simp)) h
  | negation =>
    obtain ⟨inner, rfl, rfl⟩ := Condition.readNegation_eq_ok.1 h
    exact .of_subqueries rfl (fun q hq => absurd hq List.not_mem_nil) hs
  | junction =>
    obtain ⟨j, -, rfl⟩ := Condition.readJunction_eq_ok.1 h
    exact .of_subqueries rfl (fun q hq => absurd hq List.not_mem_nil) hs
  | existence =>
    obtain ⟨q', polarity, rfl, -, rfl⟩ := Condition.readExistence_eq_ok.1 h
    exact .leaf rfl (hs (.subquery q') (by simp)).of_scalar

/-- The values of a mapping are read one by one, and each test has the sub-queries of its value.
-/
theorem ofMap {entries : List (String × Spec)} (hs : ∀ e ∈ entries, e.2.OnSubqueries Q)
    (h : Condition.ofMap entries = .ok c) : (Spec.condition c).OnSubqueries Q := by
  obtain ⟨tests, rfl, rfl⟩ := Condition.ofMap_eq_ok.1 h
  refine .leaf rfl fun q hq => ?_
  obtain ⟨e, he, hq⟩ := List.mem_flatMap.1 hq
  rw [← HashTest.subqueries_operand] at hq
  exact Operand.satisfies (hs _ (List.mem_map_of_mem he)) q hq

/-- **Reading keeps what is known of all sub-queries**, whatever the tokens under
which the forms of the library are found. -/
theorem read (table : List (String × Builtin)) {s : Spec} (hs : s.OnSubqueries Q)
    (h : s.read (.ofBuiltins table) = .node c) : (Spec.condition c).OnSubqueries Q := by
  -- From an operator only its operands are read, and the token in front is left behind.
  obtain ⟨token, operands, rfl, hparse⟩ | ⟨e, es, rfl, hmap⟩ | rfl := Spec.read_eq_node h
  · cases hs with
    | list hs =>
      obtain ⟨b, hform⟩ := Registry.exists_form_of_parse hparse
      exact .form b (fun s hs' => hs s (List.mem_cons_of_mem _ hs')) hform
  · cases hs with
    | map hs => exact .ofMap hs hmap
  · exact hs

end Spec.OnSubqueries

end WhereClause
