/-
WhereClause/Reading.lean

A specification is read one level at a time: it is a fixed text, or it is
refused, or it is a condition in which further specifications stand.  These are
smaller than the specification itself (`Spec.sizeOf_lt_of_mem_read`), so
whatever says what to do with one level says what to do with all of them; that
is `Spec.fold`, and `Spec.fold_eq` is its equation.
-/
import WhereClause.Registry

namespace WhereClause

/-- One level of a specification. -/
inductive Reading (S : Type) where
  | text (sql : String)
  | failed (e : Error)
  | node (c : Condition S)

namespace Reading

variable {S T : Type}

def nested : Reading S → List S
  | .node c => c.nested
  | _ => []

def pmap : (r : Reading S) → ((t : S) → t ∈ r.nested → T) → Reading T
  | .text sql, _ => .text sql
  | .failed e, _ => .failed e
  | .node c, f => .node (c.pmap f)

/-- Replace what stands on the next level. -/
def map (f : S → T) (r : Reading S) : Reading T := r.pmap fun t _ => f t

theorem nested_map (f : S → T) (r : Reading S) : (r.map f).nested = r.nested.map f := by
  cases r with
  | node c => exact c.nested_map f
  | _ => rfl

def ofExcept : Except Error (Condition S) → Reading S
  | .ok c => .node c
  | .error e => .failed e

theorem ofExcept_eq_node {x : Except Error (Condition S)} {c : Condition S} :
    ofExcept x = .node c ↔ x = .ok c := by
  cases x <;> simp [ofExcept]

theorem ofExcept_ne_text {x : Except Error (Condition S)} {sql : String} :
    ofExcept x ≠ .text sql := by
  cases x <;> simp [ofExcept]

end Reading

namespace Spec

/-- An empty specification is the empty text; a mapping is a hash, a list is an
operator and its operands. -/
def read (r : Registry) : Spec → Reading Spec
  | .scalar .null => .text ""
  | .scalar (.raw sql) => .text sql.text
  | .scalar (.value (.text s)) =>
    if s.isEmpty then .text "" else .failed (.unsupportedShape (.notCondition (.value .text)))
  | .scalar other => .failed (.unsupportedShape (.notCondition other.shape))
  | .list [] => .text ""
  | .list (.scalar (.value (.text token)) :: operands) => .ofExcept (r.parse token operands)
  | .list (first :: _) => .failed (.unsupportedShape (.noOperator first.shape))
  | .map [] => .text ""
  | .map (e :: es) => .ofExcept (Condition.ofMap (e :: es))
  | .condition c => .node c

/-- A fixed text is that of an empty specification or of raw SQL. -/
theorem eq_of_read_text {r : Registry} {s : Spec} {sql : String} (h : s.read r = .text sql) :
    s.isEmpty = true ∧ sql = "" ∨ s = .raw sql := by
  unfold read at h
  split at h
  · exact .inl ⟨rfl, (Reading.text.inj h).symm⟩
  · next raw => exact .inr (congrArg (fun t => Spec.scalar (.raw ⟨t⟩)) (Reading.text.inj h))
  · next t =>
    split at h
    · next ht => exact .inl ⟨ht, (Reading.text.inj h).symm⟩
    · exact absurd h (by simp)
  · exact absurd h (by simp)
  · exact .inl ⟨rfl, (Reading.text.inj h).symm⟩
  · exact absurd h Reading.ofExcept_ne_text
  · exact absurd h (by simp)
  · exact .inl ⟨rfl, (Reading.text.inj h).symm⟩
  · exact absurd h Reading.ofExcept_ne_text
  · exact absurd h (by simp)

/-- What is read as a node is a list that is parsed, a mapping that a hash is made of, or
the node itself. -/
theorem read_eq_node {r : Registry} {s : Spec} {c : Condition Spec} (h : s.read r = .node c) :
    (∃ token operands, s = operator token operands ∧ r.parse token operands = .ok c) ∨
      (∃ e es, s = .map (e :: es) ∧ Condition.ofMap (e :: es) = .ok c) ∨ s = .condition c := by
  unfold read at h
  split at h
  · exact absurd h (by simp)
  · exact absurd h (by simp)
  · split at h <;> exact absurd h (by simp)
  · exact absurd h (by simp)
  · exact absurd h (by simp)
  · next token operands =>
    exact .inl ⟨token, operands, rfl, Reading.ofExcept_eq_node.1 h⟩
  · exact absurd h (by simp)
  · exact absurd h (by simp)
  · next e es => exact .inr (.inl ⟨e, es, rfl, Reading.ofExcept_eq_node.1 h⟩)
  · exact .inr (.inr (congrArg Spec.condition (Reading.node.inj h)))

theorem sizeOf_lt_of_mem_read {r : Registry} {s t : Spec} (h : t ∈ (s.read r).nested) :
    sizeOf t < sizeOf s := by
  cases hread : s.read r with
  | text sql =>
    rw [hread] at h
    cases h
  | failed e =>
    rw [hread] at h
    cases h
  | node c =>
    rw [hread] at h
    have hc : t ∈ c.nested := h
    obtain ⟨token, operands, rfl, hparse⟩ | ⟨e, es, rfl, hmap⟩ | rfl := read_eq_node hread
    · have := Registry.sizeOf_nested_lt_of_parse hparse t hc
      simp [operator]
      omega
    · have := Condition.sizeOf_nested_lt_of_ofMap hmap t hc
      simp only [Spec.map.sizeOf_spec]
      omega
    · have := Condition.sizeOf_nested_lt hc
      simp
      omega

/-- What holds of a specification whenever it holds of all that stand in it holds always. -/
theorem induction_read {P : Spec → Prop} (r : Registry)
    (step : ∀ s, (∀ t ∈ (s.read r).nested, P t) → P s) (s : Spec) : P s :=
  step s fun t _ => induction_read r step t
termination_by sizeOf s
decreasing_by
  next h => exact sizeOf_lt_of_mem_read h

/-- What `f` makes of one level, given what it makes of the next. -/
def fold {α : Type} (r : Registry) (f : Reading α → α) (s : Spec) : α :=
  f ((s.read r).pmap fun t _ => t.fold r f)
termination_by sizeOf s
decreasing_by
  next h => exact sizeOf_lt_of_mem_read h

theorem fold_eq {α : Type} (r : Registry) (f : Reading α → α) (s : Spec) :
    s.fold r f = f ((s.read r).map (fold r f)) := by
  rw [fold]
  rfl

end Spec

end WhereClause
