/-
WhereClause/Condition.lean

The nodes of a condition.  Each node has settled, when it was made, what its
operands are for, so that none of them can turn out unusable later except the
members of a membership test, which are read one by one as they are written.

A node holds conditions of some type `S`, as operands and inside sub-queries.
Main results: replacing keeps what stands where (`Condition.nested_map`), and
whatever stands in a node is smaller than the node
(`Condition.sizeOf_nested_lt`).
-/
import WhereClause.Keyed
import WhereClause.Operand

namespace WhereClause

/-- What a column must be among. -/
inductive Candidates (S : Type) where
  | members (items : List (Operand S))
  | subquery (q : Subquery S)

/-- What the entry of a hash asks of its column: to equal a scalar (to be null,
to be in a sub-query), or to be among the members of a list. -/
inductive HashTest (S : Type) where
  | scalar (s : Scalar S)
  | list (items : List (Operand S))

/-- The right-hand side of a pattern test. -/
inductive Pattern (S : Type) where
  | text (s : String)
  | raw (sql : RawSql)
  | subquery (q : Subquery S)

/-- How texts are made into patterns. -/
inductive Escaping where
  /-- As the options say. -/
  | standard
  /-- Not at all: the text is the pattern. -/
  | disabled
  /-- Each character of the table gives way to its replacement. -/
  | custom (table : List (Char × String))
  deriving DecidableEq

/-- A node. Each kind holds what its operator asks for, and nothing that is to be judged later
except the members of a list. -/
inductive Condition (S : Type) where
  | hash (entries : List (String × HashTest S))
  | comparison (column : Column S) (operator : ComparisonOperator) (value : Scalar S)
  | membership (columns : List PlainColumn) (polarity : Polarity) (candidates : Candidates S)
  | between (column : Column S) (polarity : Polarity) (low high : Scalar S)
  | betweenColumns (value : Scalar S) (polarity : Polarity) (low high : Column S)
  | pattern (column : Column S) (operator : LikeOperator) (patterns : List (Pattern S))
      (escaping : Escaping)
  | negation (inner : S)
  | junction (operator : Junction) (operands : List S)
  | existence (polarity : Polarity) (subquery : Subquery S)

variable {S T U : Type}

/-- How an error names a condition. -/
def Condition.kind : Condition S → ConditionKind
  | .hash .. => .hash
  | .comparison .. => .comparison
  | .membership .. => .membership
  | .between .. => .between
  | .betweenColumns .. => .betweenColumns
  | .pattern .. => .pattern
  | .negation .. => .negation
  | .junction .. => .junction
  | .existence .. => .existence

/-! ### What stands in a condition -/

/-- What stands in the members of a list, or in the sub-query. -/
def Candidates.nested : Candidates S → List S
  | .members items => Operand.nestedItems items
  | .subquery q => q.nested

/-- Replace what stands in candidates, knowing that it stands there. -/
def Candidates.pmap : (c : Candidates S) → ((t : S) → t ∈ c.nested → T) → Candidates T
  | .members items, f => .members (Operand.pmapItems items f)
  | .subquery q, f => .subquery (q.pmap f)

def Candidates.map (f : S → T) (c : Candidates S) : Candidates T := c.pmap fun t _ => f t

/-- What stands in the value of an entry. -/
def HashTest.nested : HashTest S → List S
  | .scalar s => s.nested
  | .list items => Operand.nestedItems items

/-- Replace what stands in the test, knowing that it stands there. -/
def HashTest.pmap : (e : HashTest S) → ((t : S) → t ∈ e.nested → T) → HashTest T
  | .scalar s, f => .scalar (s.pmap f)
  | .list items, f => .list (Operand.pmapItems items f)

def HashTest.map (f : S → T) (e : HashTest S) : HashTest T := e.pmap fun t _ => f t

/-- A text is data, and no condition stands in it. -/
def Pattern.nested : Pattern S → List S
  | .subquery q => q.nested
  | _ => []

/-- Replace what stands in a pattern, knowing that it stands there. -/
def Pattern.pmap : (p : Pattern S) → ((t : S) → t ∈ p.nested → T) → Pattern T
  | .text s, _ => .text s
  | .raw sql, _ => .raw sql
  | .subquery q, f => .subquery (q.pmap f)

def Pattern.map (f : S → T) (p : Pattern S) : Pattern T := p.pmap fun t _ => f t

namespace Condition

/-- The conditions that stand in a condition, in the order in which they are written. -/
def nested : Condition S → List S
  | .hash entries => entries.flatMap (·.2.nested)
  | .comparison column _ value => column.nested ++ value.nested
  | .membership _ _ candidates => candidates.nested
  | .between column _ low high => column.nested ++ (low.nested ++ high.nested)
  | .betweenColumns value _ low high => value.nested ++ (low.nested ++ high.nested)
  | .pattern column _ patterns _ => column.nested ++ patterns.flatMap (·.nested)
  | .negation inner => [inner]
  | .junction _ operands => operands
  | .existence _ q => q.nested

/-- Replace what stands in a node, knowing that it stands there. Names, operators and values are
kept. -/
def pmap : (c : Condition S) → ((t : S) → t ∈ c.nested → T) → Condition T
  | .hash entries, f =>
    .hash (entries.attach.map fun e => (e.1.1, e.1.2.pmap fun t h =>
      f t (List.mem_flatMap.2 ⟨e.1, e.2, h⟩)))
  | .comparison column operator value, f =>
    .comparison (column.pmap fun t h => f t (List.mem_append_left _ h)) operator
      (value.pmap fun t h => f t (List.mem_append_right _ h))
  | .membership columns polarity candidates, f =>
    .membership columns polarity (candidates.pmap f)
  | .between column polarity low high, f =>
    .between (column.pmap fun t h => f t (List.mem_append_left _ h)) polarity
      (low.pmap fun t h => f t (List.mem_append_right _ (List.mem_append_left _ h)))
      (high.pmap fun t h => f t (List.mem_append_right _ (List.mem_append_right _ h)))
  | .betweenColumns value polarity low high, f =>
    .betweenColumns (value.pmap fun t h => f t (List.mem_append_left _ h)) polarity
      (low.pmap fun t h => f t (List.mem_append_right _ (List.mem_append_left _ h)))
      (high.pmap fun t h => f t (List.mem_append_right _ (List.mem_append_right _ h)))
  | .pattern column operator patterns escaping, f =>
    .pattern (column.pmap fun t h => f t (List.mem_append_left _ h)) operator
      (patterns.attach.map fun p => p.1.pmap fun t h =>
        f t (List.mem_append_right _ (List.mem_flatMap.2 ⟨p.1, p.2, h⟩)))
      escaping
  | .negation inner, f => .negation (f inner (List.mem_singleton_self inner))
  | .junction operator operands, f =>
    .junction operator (operands.attach.map fun t => f t.1 t.2)
  | .existence polarity q, f => .existence polarity (q.pmap f)

/-- Replace what stands in a condition. -/
def map (f : S → T) (c : Condition S) : Condition T := c.pmap fun t _ => f t

/-! ### Replacing, kind by kind -/

/-- An entry keeps its column, and its value is replaced. -/
@[simp] theorem map_hash (f : S → T) (entries : List (String × HashTest S)) :
    (hash entries).map f = hash (entries.map fun e => (e.1, e.2.map f)) :=
  congrArg hash
    (List.attach_map_val (f := fun e : String × HashTest S => (e.1, e.2.map f)))

@[simp] theorem map_comparison (f : S → T) (column : Column S) (operator : ComparisonOperator)
    (value : Scalar S) :
    (comparison column operator value).map f =
      comparison (column.map f) operator (value.map f) :=
  rfl

/-- The columns of a test of membership hold no sub-queries, so they stay. -/
@[simp] theorem map_membership (f : S → T) (columns : List PlainColumn) (polarity : Polarity)
    (candidates : Candidates S) :
    (membership columns polarity candidates).map f =
      membership columns polarity (candidates.map f) :=
  rfl

@[simp] theorem map_between (f : S → T) (column : Column S) (polarity : Polarity)
    (low high : Scalar S) :
    (between column polarity low high).map f =
      between (column.map f) polarity (low.map f) (high.map f) :=
  rfl

@[simp] theorem map_betweenColumns (f : S → T) (value : Scalar S) (polarity : Polarity)
    (low high : Column S) :
    (betweenColumns value polarity low high).map f =
      betweenColumns (value.map f) polarity (low.map f) (high.map f) :=
  rfl

/-- Each pattern is replaced by itself, and the escaping stays. -/
@[simp] theorem map_pattern (f : S → T) (column : Column S) (operator : LikeOperator)
    (patterns : List (Pattern S)) (escaping : Escaping) :
    (pattern column operator patterns escaping).map f =
      pattern (column.map f) operator (patterns.map (·.map f)) escaping :=
  congrArg (pattern (column.map f) operator · escaping)
    (List.attach_map_val (f := Pattern.map f))

@[simp] theorem map_negation (f : S → T) (inner : S) :
    (negation inner).map f = negation (f inner) :=
  rfl

/-- Each operand is replaced, in its place. -/
@[simp] theorem map_junction (f : S → T) (operator : Junction) (operands : List S) :
    (junction operator operands).map f = junction operator (operands.map f) :=
  congrArg (junction operator) (List.attach_map_val (f := f))

@[simp] theorem map_existence (f : S → T) (polarity : Polarity) (q : Subquery S) :
    (existence polarity q).map f = existence polarity (q.map f) :=
  rfl

end Condition

/-- A list of candidates is replaced member by member. -/
@[simp] theorem Candidates.map_members (f : S → T) (items : List (Operand S)) :
    (members items).map f = members (items.map (Operand.map f)) :=
  congrArg members (Operand.pmapItems_eq_map f items)

@[simp] theorem HashTest.map_list (f : S → T) (items : List (Operand S)) :
    (list items).map f = list (items.map (Operand.map f)) :=
  congrArg list (Operand.pmapItems_eq_map f items)

/-! ### What stands in a condition after replacing -/

/-- What stood in candidates was replaced where it stood. -/
theorem Candidates.nested_map (f : S → T) (c : Candidates S) :
    (c.map f).nested = c.nested.map f := by
  cases c with
  | members items => rw [map_members, nested, nested, Operand.nestedItems_map]
  | subquery q => exact q.nested_map f

theorem HashTest.nested_map (f : S → T) (e : HashTest S) :
    (e.map f).nested = e.nested.map f := by
  cases e with
  | scalar s => exact s.nested_map f
  | list items => rw [map_list, nested, nested, Operand.nestedItems_map]

theorem Pattern.nested_map (f : S → T) (p : Pattern S) : (p.map f).nested = p.nested.map f := by
  cases p with
  | subquery q => exact q.nested_map f
  | _ => rfl

/-- **Replacing keeps the places** of what stands in a node. -/
theorem Condition.nested_map (f : S → T) (c : Condition S) :
    (c.map f).nested = c.nested.map f := by
  cases c with
  | hash entries =>
    simp [nested, List.flatMap_map, List.map_flatMap, HashTest.nested_map]
  | comparison column operator value =>
    simp [nested, Column.nested_map, Scalar.nested_map]
  | membership columns polarity candidates => exact candidates.nested_map f
  | between column polarity low high =>
    simp [nested, Column.nested_map, Scalar.nested_map]
  | betweenColumns value polarity low high =>
    simp [nested, Column.nested_map, Scalar.nested_map]
  | pattern column operator patterns escaping =>
    simp [nested, Column.nested_map, List.flatMap_map, List.map_flatMap, Pattern.nested_map]
  | negation inner => rfl
  | junction operator operands => simp [nested]
  | existence polarity q => exact q.nested_map f

/-! ### Replacing twice -/

/-- To replace twice is to replace once. -/
theorem Candidates.map_map (g : T → U) (f : S → T) (c : Candidates S) :
    (c.map f).map g = c.map fun t => g (f t) := by
  cases c with
  | members items =>
    rw [map_members, map_members, map_members, Operand.map_map_items]
  | subquery q => exact congrArg Candidates.subquery (q.map_map g f)

theorem HashTest.map_map (g : T → U) (f : S → T) (e : HashTest S) :
    (e.map f).map g = e.map fun t => g (f t) := by
  cases e with
  | scalar s => exact congrArg HashTest.scalar (s.map_map g f)
  | list items => rw [map_list, map_list, map_list, Operand.map_map_items]

theorem Pattern.map_map (g : T → U) (f : S → T) (p : Pattern S) :
    (p.map f).map g = p.map fun t => g (f t) := by
  cases p with
  | subquery q => exact congrArg Pattern.subquery (q.map_map g f)
  | _ => rfl

/-- Replacing what stands in a condition twice is replacing it once. -/
theorem Condition.map_map (g : T → U) (f : S → T) (c : Condition S) :
    (c.map f).map g = c.map fun t => g (f t) := by
  cases c with
  | hash entries => simp [HashTest.map_map]
  | comparison column operator value => simp [Column.map_map, Scalar.map_map]
  | membership columns polarity candidates => simp [Candidates.map_map]
  | between column polarity low high => simp [Column.map_map, Scalar.map_map]
  | betweenColumns value polarity low high => simp [Column.map_map, Scalar.map_map]
  | pattern column operator patterns escaping => simp [Column.map_map, Pattern.map_map]
  | negation inner => rfl
  | junction operator operands => simp
  | existence polarity q => simp [Subquery.map_map]

/-! ### Replacing things by themselves -/

/-- To replace by itself is to leave as it is; the same goes for the other parts of a node. -/
theorem Candidates.map_id (c : Candidates S) : c.map id = c := by
  cases c with
  | members items => rw [map_members, Operand.map_id_items]
  | subquery q => exact congrArg Candidates.subquery q.map_id

theorem HashTest.map_id (e : HashTest S) : e.map id = e := by
  cases e with
  | scalar s => exact congrArg HashTest.scalar s.map_id
  | list items => rw [map_list, Operand.map_id_items]

theorem Pattern.map_id (p : Pattern S) : p.map id = p := by
  cases p with
  | subquery q => exact congrArg Pattern.subquery q.map_id
  | _ => rfl

/-- A node in which each thing is replaced by itself is the node as it was. -/
theorem Condition.map_id (c : Condition S) : c.map id = c := by
  cases c with
  | hash entries => simp [HashTest.map_id]
  | comparison column operator value => simp [Column.map_id, Scalar.map_id]
  | membership columns polarity candidates => simp [Candidates.map_id]
  | between column polarity low high => simp [Column.map_id, Scalar.map_id]
  | betweenColumns value polarity low high => simp [Column.map_id, Scalar.map_id]
  | pattern column operator patterns escaping => simp [Column.map_id, Pattern.map_id]
  | negation inner => rfl
  | junction operator operands => simp
  | existence polarity q => simp [Subquery.map_id]

/-! ### A condition is smaller than what it stands in -/

/-- What stands in candidates is smaller than the candidates. -/
theorem Candidates.sizeOf_nested_lt [SizeOf S] {c : Candidates S} {t : S}
    (h : t ∈ c.nested) : sizeOf t < sizeOf c := by
  cases c with
  | members items =>
    have := Operand.sizeOf_nestedItems_lt items t h
    simp
    omega
  | subquery q =>
    have := Subquery.sizeOf_nested_lt (q := q) h
    simp
    omega

theorem HashTest.sizeOf_nested_lt [SizeOf S] {e : HashTest S} {t : S}
    (h : t ∈ e.nested) : sizeOf t < sizeOf e := by
  cases e with
  | scalar s =>
    have := Scalar.sizeOf_nested_lt (s := s) h
    simp
    omega
  | list items =>
    have := Operand.sizeOf_nestedItems_lt items t h
    simp
    omega

theorem Pattern.sizeOf_nested_lt [SizeOf S] {p : Pattern S} {t : S}
    (h : t ∈ p.nested) : sizeOf t < sizeOf p := by
  cases p <;> simp_all [nested]
  next q => have := Subquery.sizeOf_nested_lt h; omega

/-- **What stands in a node is smaller than the node.** Reading goes down by this measure. -/
theorem Condition.sizeOf_nested_lt [SizeOf S] {c : Condition S} {t : S}
    (h : t ∈ c.nested) : sizeOf t < sizeOf c := by
  -- In each case a part of the node holds it, and the part is smaller than the node.
  cases c with
  | hash entries =>
    obtain ⟨e, he, ht⟩ := List.mem_flatMap.1 h
    have := HashTest.sizeOf_nested_lt ht
    have := List.sizeOf_lt_of_mem he
    cases e
    simp_all
    omega
  | comparison column operator value =>
    rcases List.mem_append.1 h with h | h
    · have := Column.sizeOf_nested_lt h; simp; omega
    · have := Scalar.sizeOf_nested_lt h; simp; omega
  | membership columns polarity candidates =>
    have := Candidates.sizeOf_nested_lt (c := candidates) h
    simp
    omega
  | between column polarity low high =>
    rcases List.mem_append.1 h with h | h
    · have := Column.sizeOf_nested_lt h; simp; omega
    · rcases List.mem_append.1 h with h | h
      · have := Scalar.sizeOf_nested_lt h; simp; omega
      · have := Scalar.sizeOf_nested_lt h; simp; omega
  | betweenColumns value polarity low high =>
    rcases List.mem_append.1 h with h | h
    · have := Scalar.sizeOf_nested_lt h; simp; omega
    · rcases List.mem_append.1 h with h | h
      · have := Column.sizeOf_nested_lt h; simp; omega
      · have := Column.sizeOf_nested_lt h; simp; omega
  | pattern column operator patterns escaping =>
    rcases List.mem_append.1 h with h | h
    · have := Column.sizeOf_nested_lt h; simp; omega
    · obtain ⟨p, hp, ht⟩ := List.mem_flatMap.1 h
      have := Pattern.sizeOf_nested_lt ht
      have := List.sizeOf_lt_of_mem hp
      simp
      omega
  | negation inner =>
    obtain rfl := List.mem_singleton.1 h
    simp
  | junction operator operands =>
    have := List.sizeOf_lt_of_mem (show t ∈ operands from h)
    simp
    omega
  | existence polarity q =>
    have := Subquery.sizeOf_nested_lt (q := q) h
    simp
    omega

end WhereClause
