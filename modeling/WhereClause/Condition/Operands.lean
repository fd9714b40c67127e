/-
WhereClause/Condition/Operands.lean

Conditions from the operands of an operator.  Each function fixes how many
operands there are and what stands in which place, and leaves the rest to the
typed conditions; the operator is named as it was given.  Whatever stands in the
condition is smaller than the operands it was made from
(`sizeOf_nested_lt_of_readMembership` and its like), which is why reading and
writing specifications comes to an end.
-/
import WhereClause.Attempt
import WhereClause.Condition.Typed

namespace WhereClause

namespace Escaping

/-- One entry of an escape table. -/
def replacement (operator : String) (e : String × Spec) : Except Error (Char × String) :=
  match e.1.toList with
  | [c] =>
    match e.2 with
    | .scalar (.value (.text s)) => .ok (c, s)
    | other => .error (.invalidOperand operator (.notReplacement other.shape))
  | _ => .error (.invalidOperand operator (.notCharacter e.1))

/-- Null leaves the escaping to the options, `false` turns it off, and a mapping
is an escape table. -/
def ofSpec (operator : String) : Spec → Except Error Escaping
  | .scalar .null => .ok .standard
  | .scalar (.value (.bool false)) => .ok .disabled
  | .map entries => do return .custom (← entries.mapM (replacement operator))
  | other => .error (.invalidOperand operator (.notEscaping other.shape))

end Escaping

namespace Condition

/-- `[operator, column, value]` -/
def readComparison (operator : String) : List Spec → Except Error (Condition Spec)
  | [column, value] => do
    let column ← Column.ofSpec operator column
    let value ← Scalar.ofSpec operator value
    ofComparison column operator (.scalar value)
  | operands => .error (.arity operator (.exactly 2) operands.length)

/-- The column or the columns of a membership test. -/
def readColumns (operator : String) : Spec → Except Error (List (Column Spec))
  | .list items => items.mapM (Column.ofSpec operator)
  | column => do return [← Column.ofSpec operator column]

/-- `[operator, column, values]`, with a list of columns for a test of rows -/
def readMembership (operator : String) : List Spec → Except Error (Condition Spec)
  | [columns, values] => do
    let columns ← readColumns operator columns
    let values ← Operand.ofSpec operator values
    ofMembership columns operator values
  | operands => .error (.arity operator (.exactly 2) operands.length)

/-- `[operator, column, low, high]` -/
def readBetween (operator : String) : List Spec → Except Error (Condition Spec)
  | [column, low, high] => do
    let column ← Column.ofSpec operator column
    let low ← Scalar.ofSpec operator low
    let high ← Scalar.ofSpec operator high
    ofBetween column operator (.scalar low) (.scalar high)
  | operands => .error (.arity operator (.exactly 3) operands.length)

/-- `[operator, value, low column, high column]` -/
def readBetweenColumns (operator : String) : List Spec → Except Error (Condition Spec)
  | [value, low, high] => do
    let value ← Scalar.ofSpec operator value
    let low ← Column.ofSpec operator low
    let high ← Column.ofSpec operator high
    ofBetweenColumns (.scalar value) operator low high
  | operands => .error (.arity operator (.exactly 3) operands.length)

/-- The column, values and escaping of a pattern test. -/
def readPatternWith (operator : String) (column values escaping : Spec) :
    Except Error (Condition Spec) := do
  let column ← Column.ofSpec operator column
  let values ← Operand.ofSpec operator values
  let escaping ← Escaping.ofSpec operator escaping
  ofPatterns column operator values escaping

/-- `[operator, column, values]`, with an escape table or `false` as a third operand -/
def readPattern (operator : String) : List Spec → Except Error (Condition Spec)
  | [column, values] => readPatternWith operator column values .null
  | [column, values, escaping] => readPatternWith operator column values escaping
  | operands => .error (.arity operator .twoOrThree operands.length)

/-- `[operator, condition]` -/
def readNegation (operator : String) : List Spec → Except Error (Condition Spec)
  | [inner] => .ok (.negation inner)
  | operands => .error (.arity operator (.exactly 1) operands.length)

/-- `[operator, condition, …]`, with any number of operands -/
def readJunction (operator : String) (operands : List Spec) : Except Error (Condition Spec) :=
  ofJunction operator operands

/-- `[operator, sub-query]` -/
def readExistence (operator : String) : List Spec → Except Error (Condition Spec)
  | [.scalar (.subquery q)] => ofExistence operator q
  | [other] => .error (.invalidOperand operator (.notSubquery other.shape))
  | operands => .error (.arity operator (.exactly 1) operands.length)

end Condition

/-! ### What is read is smaller -/

open Attempt

/-- What stands in a column stood in the specification, and was smaller. -/
theorem Column.sizeOf_nested_ofSpec {operator : String} {s : Spec} {c : Column Spec}
    (h : Column.ofSpec operator s = .ok c) : ∀ t ∈ c.nested, sizeOf t < sizeOf s := by
  intro t ht
  unfold ofSpec at h
  split at h
  · split at h <;> cases h
    simp [nested] at ht
  · cases h
    simp [nested] at ht
  · cases h
    have := Subquery.sizeOf_nested_lt (show t ∈ Subquery.nested _ from ht)
    simp
    omega
  · simp at h

namespace Operand

mutual

/-- The induction is on the specification: an operand has the depth of what it was read from. -/
theorem sizeOf_nested_ofSpec {operator : String} : ∀ {s : Spec} {o : Operand Spec},
    ofSpec operator s = .ok o → ∀ t ∈ o.nested, sizeOf t < sizeOf s
  | .scalar s, o, h, t, ht => by
    cases h
    rw [nested] at ht
    have := Scalar.sizeOf_nested_lt ht
    simp
    omega
  | .list items, o, h, t, ht => by
    rw [ofSpec] at h
    obtain ⟨os, hos, h⟩ := bind_eq_ok.1 h
    cases h
    rw [nested] at ht
    have := sizeOf_nested_ofItems hos t ht
    simp
    omega
  | .map entries, o, h, t, ht => by
    rw [ofSpec] at h
    obtain ⟨es, hes, h⟩ := bind_eq_ok.1 h
    cases h
    rw [nested] at ht
    have := sizeOf_nested_ofEntries hes t ht
    simp
    omega
  | .condition c, o, h, t, ht => by simp [ofSpec] at h

/-- What stands in members is smaller than the list of items. -/
theorem sizeOf_nested_ofItems {operator : String} : ∀ {ss : List Spec} {os : List (Operand Spec)},
    ofItems operator ss = .ok os → ∀ t ∈ nestedItems os, sizeOf t < sizeOf ss
  | [], os, h, t, ht => by
    cases h
    simp [nestedItems] at ht
  | s :: ss, os, h, t, ht => by
    rw [ofItems] at h
    obtain ⟨o, ho, h⟩ := bind_eq_ok.1 h
    obtain ⟨os', hos, h⟩ := bind_eq_ok.1 h
    cases h
    rw [nestedItems] at ht
    simp only [List.cons.sizeOf_spec]
    rcases List.mem_append.1 ht with ht | ht
    · have := sizeOf_nested_ofSpec ho t ht; omega
    · have := sizeOf_nested_ofItems hos t ht; omega

/-- What stands in entries is smaller than the mapping. -/
theorem sizeOf_nested_ofEntries {operator : String} :
    ∀ {ss : List (String × Spec)} {es : List (String × Operand Spec)},
    ofEntries operator ss = .ok es → ∀ t ∈ nestedEntries es, sizeOf t < sizeOf ss
  | [], es, h, t, ht => by
    cases h
    simp [nestedEntries] at ht
  | (k, s) :: ss, es, h, t, ht => by
    rw [ofEntries] at h
    obtain ⟨o, ho, h⟩ := bind_eq_ok.1 h
    obtain ⟨es', hes, h⟩ := bind_eq_ok.1 h
    cases h
    rw [nestedEntries] at ht
    simp only [List.cons.sizeOf_spec, Prod.mk.sizeOf_spec]
    rcases List.mem_append.1 ht with ht | ht
    · have := sizeOf_nested_ofSpec ho t ht; omega
    · have := sizeOf_nested_ofEntries hes t ht; omega

end

end Operand

/-- A scalar is an operand that was not too deep. -/
theorem Scalar.sizeOf_nested_ofSpec {operator : String} {s : Spec} {x : Scalar Spec}
    (h : Scalar.ofSpec operator s = .ok x) : ∀ t ∈ x.nested, sizeOf t < sizeOf s := by
  obtain ⟨o, ho, h⟩ := bind_eq_ok.1 h
  rw [Operand.nested_toScalar h]
  exact Operand.sizeOf_nested_ofSpec ho

namespace Condition

/-- A constructor puts into its node what it is given. -/
theorem nested_ofComparison {S : Type} {column : Column S} {token : String} {x : Scalar S}
    {c : Condition S} (h : ofComparison column token (.scalar x) = .ok c) :
    c.nested = column.nested ++ x.nested := by
  obtain ⟨o, -, h⟩ := bind_eq_ok.1 h
  cases h
  rfl

/-- Plain columns hold nothing, so only the operand matters. -/
theorem nested_ofMembership {S : Type} {columns : List (Column S)} {token : String}
    {o : Operand S} {c : Condition S} (h : ofMembership columns token o = .ok c) :
    c.nested = o.nested := by
  obtain ⟨p, -, h⟩ := bind_eq_ok.1 h
  obtain ⟨cs, -, h⟩ := bind_eq_ok.1 h
  cases h
  exact Candidates.nested_ofOperand o

theorem nested_ofBetween {S : Type} {column : Column S} {token : String} {x y : Scalar S}
    {c : Condition S} (h : ofBetween column token (.scalar x) (.scalar y) = .ok c) :
    c.nested = column.nested ++ (x.nested ++ y.nested) := by
  obtain ⟨p, -, h⟩ := bind_eq_ok.1 h
  cases h
  rfl

theorem nested_ofBetweenColumns {S : Type} {x : Scalar S} {token : String}
    {low high : Column S} {c : Condition S}
    (h : ofBetweenColumns (.scalar x) token low high = .ok c) :
    c.nested = x.nested ++ (low.nested ++ high.nested) := by
  obtain ⟨p, -, h⟩ := bind_eq_ok.1 h
  cases h
  rfl

/-- What stands in a pattern stood in its member. -/
theorem mem_nested_ofPatterns {S : Type} {column : Column S} {token : String} {o : Operand S}
    {escaping : Escaping} {c : Condition S}
    (h : ofPatterns column token o escaping = .ok c) {t : S} (ht : t ∈ c.nested) :
    t ∈ column.nested ∨ t ∈ o.nested := by
  obtain ⟨like, -, h⟩ := bind_eq_ok.1 h
  obtain ⟨ps, hps, h⟩ := bind_eq_ok.1 h
  cases h
  refine (List.mem_append.1 ht).imp_right fun ht => ?_
  obtain ⟨p, hp, ht⟩ := List.mem_flatMap.1 ht
  obtain ⟨m, hm, hmp⟩ := exists_of_mem_mapM hps p hp
  rw [Pattern.nested_ofOperand hmp] at ht
  rw [← Operand.nestedItems_members]
  exact Operand.mem_nestedItems hm ht

/-- **Reading goes down**: what stands in the node is smaller than the operands it was read
from. The readers differ in where their operands go. -/
theorem sizeOf_nested_lt_of_readComparison {operator : String} {operands : List Spec}
    {c : Condition Spec} (h : readComparison operator operands = .ok c) :
    ∀ t ∈ c.nested, sizeOf t < sizeOf operands := by
  unfold readComparison at h
  split at h
  · obtain ⟨x, hx, h⟩ := bind_eq_ok.1 h
    obtain ⟨y, hy, h⟩ := bind_eq_ok.1 h
    rw [nested_ofComparison h]
    intro t ht
    rcases List.mem_append.1 ht with ht | ht
    · have := Column.sizeOf_nested_ofSpec hx t ht; simp; omega
    · have := Scalar.sizeOf_nested_ofSpec hy t ht; simp; omega
  · simp at h

/-- The columns hold nothing that is kept. -/
theorem sizeOf_nested_lt_of_readMembership {operator : String} {operands : List Spec}
    {c : Condition Spec} (h : readMembership operator operands = .ok c) :
    ∀ t ∈ c.nested, sizeOf t < sizeOf operands := by
  unfold readMembership at h
  split at h
  · obtain ⟨x, hx, h⟩ := bind_eq_ok.1 h
    obtain ⟨y, hy, h⟩ := bind_eq_ok.1 h
    rw [nested_ofMembership h]
    intro t ht
    have := Operand.sizeOf_nested_ofSpec hy t ht
    simp
    omega
  · simp at h

theorem sizeOf_nested_lt_of_readBetween {operator : String} {operands : List Spec}
    {c : Condition Spec} (h : readBetween operator operands = .ok c) :
    ∀ t ∈ c.nested, sizeOf t < sizeOf operands := by
  unfold readBetween at h
  split at h
  · obtain ⟨x, hx, h⟩ := bind_eq_ok.1 h
    obtain ⟨y, hy, h⟩ := bind_eq_ok.1 h
    obtain ⟨z, hz, h⟩ := bind_eq_ok.1 h
    rw [nested_ofBetween h]
    intro t ht
    rcases List.mem_append.1 ht with ht | ht
    · have := Column.sizeOf_nested_ofSpec hx t ht; simp; omega
    · rcases List.mem_append.1 ht with ht | ht
      · have := Scalar.sizeOf_nested_ofSpec hy t ht; simp; omega
      · have := Scalar.sizeOf_nested_ofSpec hz t ht; simp; omega
  · simp at h

theorem sizeOf_nested_lt_of_readBetweenColumns {operator : String} {operands : List Spec}
    {c : Condition Spec} (h : readBetweenColumns operator operands = .ok c) :
    ∀ t ∈ c.nested, sizeOf t < sizeOf operands := by
  unfold readBetweenColumns at h
  split at h
  · obtain ⟨x, hx, h⟩ := bind_eq_ok.1 h
    obtain ⟨y, hy, h⟩ := bind_eq_ok.1 h
    obtain ⟨z, hz, h⟩ := bind_eq_ok.1 h
    rw [nested_ofBetweenColumns h]
    intro t ht
    rcases List.mem_append.1 ht with ht | ht
    · have := Scalar.sizeOf_nested_ofSpec hx t ht; simp; omega
    · rcases List.mem_append.1 ht with ht | ht
      · have := Column.sizeOf_nested_ofSpec hy t ht; simp; omega
      · have := Column.sizeOf_nested_ofSpec hz t ht; simp; omega
  · simp at h

/-- The escaping holds nothing. -/
theorem sizeOf_nested_lt_of_readPatternWith {operator : String} {column values escaping : Spec}
    {c : Condition Spec} (h : readPatternWith operator column values escaping = .ok c) :
    ∀ t ∈ c.nested, sizeOf t < sizeOf column + sizeOf values := by
  obtain ⟨x, hx, h⟩ := bind_eq_ok.1 h
  obtain ⟨y, hy, h⟩ := bind_eq_ok.1 h
  obtain ⟨z, -, h⟩ := bind_eq_ok.1 h
  intro t ht
  rcases mem_nested_ofPatterns h ht with ht | ht
  · have := Column.sizeOf_nested_ofSpec hx t ht; omega
  · have := Operand.sizeOf_nested_ofSpec hy t ht; omega

theorem sizeOf_nested_lt_of_readPattern {operator : String} {operands : List Spec}
    {c : Condition Spec} (h : readPattern operator operands = .ok c) :
    ∀ t ∈ c.nested, sizeOf t < sizeOf operands := by
  unfold readPattern at h
  split at h
  · intro t ht
    have := sizeOf_nested_lt_of_readPatternWith h t ht
    simp
    omega
  · intro t ht
    have := sizeOf_nested_lt_of_readPatternWith h t ht
    simp
    omega
  · simp at h

/-- The operand itself is kept, and it is smaller than the list that it stands in. -/
theorem sizeOf_nested_lt_of_readNegation {operator : String} {operands : List Spec}
    {c : Condition Spec} (h : readNegation operator operands = .ok c) :
    ∀ t ∈ c.nested, sizeOf t < sizeOf operands := by
  unfold readNegation at h
  split at h
  · cases h
    intro t ht
    exact List.sizeOf_lt_of_mem ht
  · simp at h

/-- Each operand is smaller than the list. -/
theorem sizeOf_nested_lt_of_readJunction {operator : String} {operands : List Spec}
    {c : Condition Spec} (h : readJunction operator operands = .ok c) :
    ∀ t ∈ c.nested, sizeOf t < sizeOf operands := by
  obtain ⟨j, -, h⟩ := bind_eq_ok.1 h
  cases h
  exact fun t ht => List.sizeOf_lt_of_mem ht

/-- The sub-query holds what is smaller than itself. -/
theorem sizeOf_nested_lt_of_readExistence {operator : String} {operands : List Spec}
    {c : Condition Spec} (h : readExistence operator operands = .ok c) :
    ∀ t ∈ c.nested, sizeOf t < sizeOf operands := by
  unfold readExistence at h
  split at h
  · obtain ⟨p, -, h⟩ := bind_eq_ok.1 h
    cases h
    intro t ht
    have := Subquery.sizeOf_nested_lt (show t ∈ Subquery.nested _ from ht)
    simp
    omega
  · simp at h
  · simp at h

/-- A value of a mapping holds what is smaller than the mapping. -/
theorem sizeOf_nested_lt_of_ofMap {entries : List (String × Spec)} {c : Condition Spec}
    (h : ofMap entries = .ok c) : ∀ t ∈ c.nested, sizeOf t < sizeOf entries := by
  obtain ⟨os, hos, h⟩ := bind_eq_ok.1 h
  obtain ⟨es, hes, h⟩ := bind_eq_ok.1 h
  cases h
  intro t ht
  obtain ⟨e, he, ht⟩ := List.mem_flatMap.1 ht
  obtain ⟨⟨k, o⟩, ho, hoe⟩ := exists_of_mem_mapM hes e he
  obtain ⟨e', he', hoe⟩ := bind_eq_ok.1 hoe
  cases hoe
  rw [HashTest.nested_ofOperand he'] at ht
  obtain ⟨⟨k', s⟩, hs, hso⟩ := exists_of_mem_mapM hos (k, o) ho
  obtain ⟨o', ho', hso⟩ := bind_eq_ok.1 hso
  cases hso
  have : sizeOf t < sizeOf s := Operand.sizeOf_nested_ofSpec ho' t ht
  have := List.sizeOf_lt_of_mem hs
  simp only [Prod.mk.sizeOf_spec] at this
  omega

end Condition

end WhereClause
