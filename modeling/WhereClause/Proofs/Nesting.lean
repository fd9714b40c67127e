/-
WhereClause/Proofs/Nesting.lean

What stands in a specification, and how much of it there is.  The parts of a specification
are the specifications on its next level: the items of a list, the values of a mapping,
and the conditions in sub-queries and typed conditions.  They are smaller, so the size and
the depth of a specification are had from those of its parts.

Reading goes down a level as well, but to other specifications: a list becomes a node that
may hold what stands far inside the list.  What it holds is either operands as they are, or
what is inside them (`Spec.inside`), each in its place and no more than once.

Main results: the conditions on the level that is read next are all inside the
specification or are parts of it (`Spec.sublist_read`), so together they have fewer
constructors than it (`Spec.totalSize_read_lt`), and each of them is less deep
(`Spec.depth_lt_of_mem_read`).
-/
import Mathlib.Algebra.Order.BigOperators.Group.List
import Mathlib.Algebra.Order.Ring.Nat
import Mathlib.Data.List.MinMax
import Mathlib.Order.Nat
import WhereClause.Proofs.Roles
import WhereClause.Proofs.Spelling

namespace WhereClause

/-! ### The constructors of a node

Operands, columns and the node itself are counted; what stands in sub-queries is not. -/

section

variable {S : Type}

namespace Operand

mutual

/-- An operand and all its members and entries count as one each. -/
def weight : Operand S → Nat
  | .scalar _ => 1
  | .list items => 1 + itemsWeight items
  | .row entries => 1 + entriesWeight entries

/-- The members of a list together. -/
def itemsWeight : List (Operand S) → Nat
  | [] => 0
  | o :: os => o.weight + itemsWeight os

/-- The entries of a row together; keys are not counted. -/
def entriesWeight : List (String × Operand S) → Nat
  | [] => 0
  | (_, o) :: es => o.weight + entriesWeight es

end

end Operand

/-- A list of candidates counts as one more than its members. -/
def Candidates.weight : Candidates S → Nat
  | .members items => 1 + Operand.itemsWeight items
  | .subquery _ => 1

/-- A list in a hash counts as one more than its members. -/
def HashTest.weight : HashTest S → Nat
  | .scalar _ => 1
  | .list items => 1 + Operand.itemsWeight items

/-- A node, its columns, and what they are tested against. -/
def Condition.weight : Condition S → Nat
  | .hash entries => 1 + (entries.map (·.2.weight)).sum
  | .comparison _ _ _ => 3
  | .membership columns _ candidates => 1 + columns.length + candidates.weight
  | .between _ _ _ _ | .betweenColumns _ _ _ _ => 4
  | .pattern _ _ patterns _ => 2 + patterns.length
  | .negation _ | .junction _ _ => 1
  | .existence _ _ => 2

end

namespace Spec

/-! ### Parts -/

/-- The specifications that stand in one, on the next level. -/
def parts : Spec → List Spec
  | .scalar x => x.nested
  | .list items => items
  | .map entries => entries.map (·.2)
  | .condition c => c.nested

/-- Parts are smaller, by the measure that recursions go down. -/
theorem sizeOf_lt_of_mem_parts {s t : Spec} (h : t ∈ s.parts) : sizeOf t < sizeOf s := by
  cases s with
  | scalar x =>
    have := Scalar.sizeOf_nested_lt (show t ∈ x.nested from h)
    simp
    omega
  | list items =>
    have := List.sizeOf_lt_of_mem (show t ∈ items from h)
    simp
    omega
  | map entries =>
    obtain ⟨e, he, rfl⟩ := List.mem_map.1 h
    have := List.sizeOf_lt_of_mem he
    cases e
    simp_all
    omega
  | condition c =>
    have := Condition.sizeOf_nested_lt (show t ∈ c.nested from h)
    simp
    omega

/-- What holds of a specification whenever it holds of its parts holds always. -/
theorem induction_parts {P : Spec → Prop} (step : ∀ s, (∀ t ∈ s.parts, P t) → P s) (s : Spec) :
    P s :=
  step s fun t _ => induction_parts step t
termination_by sizeOf s
decreasing_by
  next h => exact sizeOf_lt_of_mem_parts h

/-- The constructors of a specification itself. -/
def weight : Spec → Nat
  | .condition c => 1 + c.weight
  | _ => 1

/-- The number of constructors, in lists, mappings, typed conditions and sub-queries, too. -/
def size (s : Spec) : Nat := s.weight + (s.parts.attach.map fun t => t.1.size).sum
termination_by sizeOf s
decreasing_by
  exact sizeOf_lt_of_mem_parts t.2

/-- The number of levels. -/
def depth (s : Spec) : Nat := 1 + (s.parts.attach.map fun t => t.1.depth).foldr max 0
termination_by sizeOf s
decreasing_by
  exact sizeOf_lt_of_mem_parts t.2

/-- Several specifications together. -/
def totalSize (ss : List Spec) : Nat := (ss.map size).sum

/-- Nothing is without a constructor. -/
theorem weight_pos (s : Spec) : 0 < s.weight := by
  cases s with
  | condition c =>
    rw [weight]
    omega
  | _ => exact Nat.one_pos

/-- The size is the weight, and the sizes of the parts. -/
theorem size_eq (s : Spec) : s.size = s.weight + totalSize s.parts := by
  rw [size, List.attach_map_val (f := size), totalSize]

/-- The depth is one more than the depth of the deepest part. -/
theorem depth_eq (s : Spec) : s.depth = 1 + (s.parts.map depth).foldr max 0 := by
  rw [depth, List.attach_map_val (f := depth)]

theorem depth_pos (s : Spec) : 0 < s.depth := by
  rw [depth_eq]
  omega

/-- A part is less deep than the whole. -/
theorem depth_lt_of_mem_parts {s t : Spec} (h : t ∈ s.parts) : t.depth < s.depth := by
  have hle : t.depth ≤ (s.parts.map depth).foldr max 0 :=
    List.le_max_of_le (List.mem_map_of_mem h) (Nat.le_refl _)
  rw [depth_eq s]
  omega

/-- All parts together are smaller than the whole. -/
theorem totalSize_parts_lt (s : Spec) : totalSize s.parts < s.size := by
  have hpos := s.weight_pos
  rw [size_eq]
  omega

/-- To leave some out makes the whole no larger. -/
theorem totalSize_le_of_sublist {ss ts : List Spec} (h : ss.Sublist ts) :
    totalSize ss ≤ totalSize ts :=
  (h.map size).sum_le_sum fun _ _ => Nat.zero_le _

/-! ### What is inside operands -/

/-- A list or a mapping, in which operands stand; elsewhere only conditions do. -/
def isCompound : Spec → Bool
  | .list _ | .map _ => true
  | _ => false

/-- The conditions in a specification that stands as an operand: those in its sub-queries,
at any depth of lists and mappings. -/
def inside (s : Spec) : List Spec :=
  if s.isCompound then s.parts.attach.flatMap fun t => t.1.inside else s.parts
termination_by sizeOf s
decreasing_by
  exact sizeOf_lt_of_mem_parts t.2

/-- What is inside: below lists and mappings it is looked for again, and below all else it is
found. -/
theorem inside_eq (s : Spec) :
    s.inside = if s.isCompound then s.parts.flatMap inside else s.parts := by
  have hattach : s.parts.attach.flatMap (fun t => t.1.inside) = s.parts.flatMap inside := by
    rw [← List.flatMap_map Subtype.val, List.attach_map_subtype_val]
  rw [inside, hattach]

/-- In a scalar there are the conditions of its sub-query. -/
theorem inside_scalar (x : Scalar Spec) : (scalar x).inside = x.nested := inside_eq _

/-- In a list there is what is in its items. -/
theorem inside_list (items : List Spec) : (list items).inside = items.flatMap inside :=
  inside_eq _

/-- In a mapping there is what is in its values. -/
theorem inside_map (entries : List (String × Spec)) :
    (map entries).inside = entries.flatMap (·.2.inside) :=
  (inside_eq _).trans (List.flatMap_map _ _ _)

/-- Together, the conditions inside an operand have fewer constructors than it. -/
theorem totalSize_inside_lt (s : Spec) : totalSize s.inside < s.size := by
  induction s using induction_parts with
  | step s ih =>
    have hparts := s.totalSize_parts_lt
    rw [inside_eq]
    split
    · have hle : totalSize (s.parts.flatMap inside) ≤ totalSize s.parts := by
        rw [totalSize, List.map_flatMap, List.flatMap_def, List.sum_flatten, List.map_map]
        exact List.sum_le_sum fun t ht => Nat.le_of_lt (ih t ht)
      exact Nat.lt_of_le_of_lt hle hparts
    · exact hparts

/-- Each condition inside an operand is less deep than it. -/
theorem depth_lt_of_mem_inside {s t : Spec} (h : t ∈ s.inside) : t.depth < s.depth := by
  induction s using induction_parts with
  | step s ih =>
    rw [inside_eq] at h
    split at h
    · obtain ⟨u, hu, ht⟩ := List.mem_flatMap.1 h
      exact Nat.lt_trans (ih u hu ht) (depth_lt_of_mem_parts hu)
    · exact depth_lt_of_mem_parts h

end Spec

/-! ### Operands in their places -/

open Spec (inside inside_scalar inside_list inside_map)

/-- Reading a column keeps what is inside. -/
theorem Column.inside_spelling (c : Column Spec) : c.spelling.inside = c.nested := by
  cases c <;> exact inside_scalar _

/-- Nothing stands in a plain column. -/
theorem PlainColumn.nested_column (c : PlainColumn) : (c.column : Column Spec).nested = [] := by
  cases c <;> rfl

namespace Operand

theorem nestedItems_eq {S : Type} (os : List (Operand S)) :
    nestedItems os = os.flatMap (·.nested) := by
  induction os with
  | nil => rfl
  | cons o os ih => rw [nestedItems, ih, List.flatMap_cons]

mutual

/-- Reading an operand takes nothing away from what is inside. -/
theorem inside_spelling : ∀ o : Operand Spec, o.spelling.inside = o.nested
  | .scalar s => by rw [spelling, inside_scalar, nested]
  | .list items => by rw [spelling, inside_list, nested, inside_spellings items]
  | .row entries => by rw [spelling, inside_map, nested, inside_entrySpellings entries]

/-- Reading members keeps what is inside each of them, in their order. -/
theorem inside_spellings : ∀ os : List (Operand Spec),
    (spellings os).flatMap inside = nestedItems os
  | [] => rfl
  | o :: os => by
    rw [spellings, List.flatMap_cons, inside_spelling o, inside_spellings os, nestedItems]

/-- Reading entries keeps what is inside each of them, in their order. -/
theorem inside_entrySpellings : ∀ es : List (String × Operand Spec),
    (entrySpellings es).flatMap (·.2.inside) = nestedEntries es
  | [] => rfl
  | (_, o) :: es => by
    rw [entrySpellings, List.flatMap_cons, inside_spelling o, inside_entrySpellings es,
      nestedEntries]

end

end Operand

/-- The columns of a membership test are no sub-queries. -/
theorem PlainColumn.inside_of_readColumns {operator : String} {s : Spec}
    {columns : List PlainColumn}
    (h : Condition.readColumns operator s = .ok (columns.map PlainColumn.column)) :
    s.inside = [] := by
  have hplain : ∀ c ∈ columns.map PlainColumn.column, c.spelling.inside = [] := by
    intro c hc
    obtain ⟨p, -, rfl⟩ := List.mem_map.1 hc
    rw [Column.inside_spelling, PlainColumn.nested_column]
  obtain ⟨rfl | ⟨c, hc, rfl⟩, -⟩ := Condition.readColumns_eq_ok.1 h
  · rw [inside_list, List.flatMap_map, List.flatMap_eq_nil_iff]
    exact hplain
  · apply hplain
    rw [hc]
    exact List.mem_singleton_self c

/-- An escaping holds no conditions. -/
theorem Escaping.inside_spelling (e : Escaping) : e.spelling.inside = [] := by
  cases e with
  | standard => exact inside_scalar _
  | disabled => exact inside_scalar _
  | custom table =>
    rw [spelling, inside_map, List.flatMap_map, List.flatMap_eq_nil_iff]
    exact fun e _ => inside_scalar _

/-- Patterns hold what the values hold, in their order. -/
theorem Pattern.nested_of_mapM {operator : String} {o : Operand Spec}
    {patterns : List (Pattern Spec)}
    (h : o.members.mapM (Pattern.ofOperand operator) = .ok patterns) :
    patterns.flatMap (·.nested) = o.nested := by
  have hmap : patterns.map Pattern.nested = o.members.map Operand.nested :=
    Attempt.map_eq_of_mapM (fun _ _ hp => Pattern.nested_ofOperand hp) h
  rw [← Operand.nestedItems_members, Operand.nestedItems_eq, List.flatMap_def, List.flatMap_def,
    hmap]

/-- To take an operand as a test keeps what stands in it. -/
theorem HashTest.nested_operand {S : Type} (e : HashTest S) : e.operand.nested = e.nested := by
  cases e with
  | scalar s => rw [operand, Operand.nested, nested]
  | list items => rw [operand, Operand.nested, nested]

/-! ### Nodes -/

namespace Condition

variable {operator : String} {operands : List Spec} {c : Condition Spec}

/-- What stands in a pattern test was inside its column and its values. -/
theorem nested_of_readPatternWith {column values escaping : Spec}
    (h : readPatternWith operator column values escaping = .ok c) :
    c.nested = column.inside ++ values.inside ∧ escaping.inside = [] := by
  obtain ⟨column', o, escaping', like, patterns, rfl, rfl, rfl, -, -, hpatterns, rfl⟩ :=
    readPatternWith_eq_ok.1 h
  rw [Column.inside_spelling, Operand.inside_spelling, Escaping.inside_spelling, nested,
    Pattern.nested_of_mapM hpatterns]
  exact ⟨rfl, rfl⟩

/-- **What stands in the node of a form**: the operands themselves, or all that is inside
them, in its order. -/
theorem nested_of_form (b : Builtin) (h : b.form.read operator operands = .ok c) :
    c.nested = operands ∨ c.nested = operands.flatMap inside := by
  -- A negation and a junction hold their operands; every other form takes its operands apart.
  cases b with
  | comparison =>
    obtain ⟨column, x, comparison, rfl, -, -, rfl⟩ := readComparison_eq_ok.1 h
    right
    simp [nested, inside_scalar, column.inside_spelling]
  | membership =>
    obtain ⟨s, o, columns, polarity, rfl, hcolumns, -, rfl⟩ := readMembership_eq_ok.1 h
    right
    simp [nested, Candidates.nested_ofOperand, PlainColumn.inside_of_readColumns hcolumns,
      o.inside_spelling]
  | between =>
    obtain ⟨column, low, high, polarity, rfl, -, -, rfl⟩ := readBetween_eq_ok.1 h
    right
    simp [nested, inside_scalar, column.inside_spelling]
  | betweenColumns =>
    obtain ⟨x, low, high, polarity, rfl, -, -, -, rfl⟩ := readBetweenColumns_eq_ok.1 h
    right
    simp [nested, inside_scalar, low.inside_spelling, high.inside_spelling]
  | pattern =>
    obtain ⟨column, values, escaping, hoperands, h⟩ := readPattern_eq_ok.1 h
    obtain ⟨hnested, hescaping⟩ := nested_of_readPatternWith h
    right
    -- Without an escaping there is one operand less, and nothing would be inside it.
    rcases hoperands with rfl | ⟨rfl, -⟩
    · simp [hnested, hescaping]
    · simp [hnested]
  | negation =>
    obtain ⟨inner, rfl, rfl⟩ := readNegation_eq_ok.1 h
    exact .inl rfl
  | junction =>
    obtain ⟨j, -, rfl⟩ := readJunction_eq_ok.1 h
    exact .inl rfl
  | existence =>
    obtain ⟨q, polarity, rfl, -, rfl⟩ := readExistence_eq_ok.1 h
    right
    simp [nested, Spec.subquery, inside_scalar, Scalar.nested]

/-- A hash holds what is inside the values of its mapping. -/
theorem nested_of_ofMap {entries : List (String × Spec)} (h : ofMap entries = .ok c) :
    c.nested = (Spec.map entries).inside := by
  obtain ⟨tests, rfl, rfl⟩ := ofMap_eq_ok.1 h
  rw [inside_map, List.flatMap_map, nested]
  apply List.flatMap_congr
  intro e _
  rw [Operand.inside_spelling, HashTest.nested_operand]

end Condition

namespace Spec

/-! ### The level that is read next -/

/-- **What stands on the level that is read next** is inside the specification or is part
of it, in its order, whatever the tokens under which the forms of the library are found. -/
theorem sublist_read (table : List (String × Builtin)) (s : Spec) :
    (s.read (.ofBuiltins table)).nested.Sublist s.inside ∨
      (s.read (.ofBuiltins table)).nested.Sublist s.parts := by
  cases hread : s.read (.ofBuiltins table) with
  | text sql => exact .inl (List.nil_sublist _)
  | failed e => exact .inl (List.nil_sublist _)
  | node c =>
    obtain ⟨token, operands, rfl, hparse⟩ | ⟨e, es, rfl, hmap⟩ | rfl := read_eq_node hread
    · obtain ⟨b, hform⟩ := Registry.exists_form_of_parse hparse
      rcases Condition.nested_of_form b hform with hnested | hnested
      · -- The token in front is not read, so the operands are only a part of the list.
        right
        show c.nested.Sublist (_ :: operands)
        rw [hnested]
        exact List.sublist_cons_self _ _
      · -- The token in front has nothing inside it that is read.
        left
        show c.nested.Sublist _
        rw [hnested, operator, inside_list, List.flatMap_cons]
        exact List.sublist_append_right _ _
    · left
      show c.nested.Sublist _
      rw [Condition.nested_of_ofMap hmap]
    · exact .inr (List.Sublist.refl _)

/-- **Reading shrinks**: all that stands on the next level has fewer constructors, together,
than the specification. -/
theorem totalSize_read_lt (table : List (String × Builtin)) (s : Spec) :
    totalSize (s.read (.ofBuiltins table)).nested < s.size := by
  rcases sublist_read table s with h | h
  · exact Nat.lt_of_le_of_lt (totalSize_le_of_sublist h) s.totalSize_inside_lt
  · exact Nat.lt_of_le_of_lt (totalSize_le_of_sublist h) s.totalSize_parts_lt

/-- **Reading goes down**: each specification on the next level is less deep. -/
theorem depth_lt_of_mem_read {table : List (String × Builtin)} {s t : Spec}
    (h : t ∈ (s.read (.ofBuiltins table)).nested) : t.depth < s.depth := by
  rcases sublist_read table s with hinside | hparts
  · exact depth_lt_of_mem_inside (hinside.subset h)
  · exact depth_lt_of_mem_parts (hparts.subset h)

end Spec

end WhereClause
