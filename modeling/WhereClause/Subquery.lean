/-
WhereClause/Subquery.lean

Queries inside conditions.  A sub-query holds conditions of some type `S`; what
`S` is changes as a condition is read, measured or written, and `pmap` replaces
each of them with the knowledge that it stands in the sub-query (`nested`).

A template is a query that a caller has written, in so far as it can be looked into: parts in
a fixed order.  A query of a caller's own may do anything with what it is offered, in any
order; such a query is a template of one part, which is its program (`Open.Spec.foreign`).

Main results: replacing keeps what stands where (`nested_map`), replacing twice is replacing
once (`map_map`, `map_id`), and whatever stands in a sub-query is smaller than the sub-query
(`sizeOf_nested_lt`).
-/
import WhereClause.Value

namespace WhereClause

/-- A piece of a query that its author wrote out by hand. -/
inductive Template.Part (S : Type) where
  /-- Written as it is. -/
  | text (s : String)
  /-- Bound; its placeholder is written. -/
  | value (v : Value)
  /-- Quoted as a column. -/
  | column (name : String)
  /-- Quoted as a table. -/
  | table (name : String)
  /-- Compiled in place. -/
  | condition (c : S)
  /-- The number of values bound so far. -/
  | count

/-- A query in a condition, without the parentheses around it. -/
inductive Subquery (S : Type) where
  /-- `SELECT columns FROM table`, all columns if none is named, and `WHERE` the
  filter unless it is empty. -/
  | select (table : String) (columns : List String) (filter : Option S)
  /-- The given parts, one after the other, with nothing in between. -/
  | template (parts : List (Template.Part S))

variable {S T U : Type}

namespace Template.Part

/-- Of the parts only a condition holds one. -/
def nested : Template.Part S → List S
  | .condition c => [c]
  | _ => []

/-- Replace the condition in a part, knowing that it stands there. -/
def pmap : (p : Template.Part S) → ((s : S) → s ∈ p.nested → T) → Template.Part T
  | .text s, _ => .text s
  | .value v, _ => .value v
  | .column n, _ => .column n
  | .table n, _ => .table n
  | .condition c, f => .condition (f c (List.mem_singleton.2 rfl))
  | .count, _ => .count

/-- Replace the condition in a part. -/
def map (f : S → T) (p : Template.Part S) : Template.Part T := p.pmap fun s _ => f s

/-- What stood in a part was replaced where it stood. -/
theorem nested_map (f : S → T) (p : Template.Part S) : (p.map f).nested = p.nested.map f := by
  cases p <;> rfl

theorem map_map (g : T → U) (f : S → T) (p : Template.Part S) :
    (p.map f).map g = p.map fun s => g (f s) := by
  cases p <;> rfl

theorem map_id (p : Template.Part S) : p.map id = p := by
  cases p <;> rfl

end Template.Part

namespace Subquery

/-- The conditions that stand in a sub-query, in order. -/
def nested : Subquery S → List S
  | .select _ _ filter => filter.toList
  | .template parts => parts.flatMap (·.nested)

/-- Replace the conditions in a query, knowing that they stand in it. -/
def pmap : (q : Subquery S) → ((s : S) → s ∈ q.nested → T) → Subquery T
  | .select table columns none, _ => .select table columns none
  | .select table columns (some c), f =>
    .select table columns (some (f c (List.mem_singleton.2 rfl)))
  | .template parts, f =>
    .template (parts.attach.map fun p => p.1.pmap fun s h =>
      f s (List.mem_flatMap.2 ⟨p.1, p.2, h⟩))

/-- Replace the conditions in a query; its tables, columns and texts are kept. -/
def map (f : S → T) (q : Subquery S) : Subquery T := q.pmap fun s _ => f s

@[simp] theorem map_select (f : S → T) (table : String) (columns : List String)
    (filter : Option S) :
    (select table columns filter).map f = select table columns (filter.map f) := by
  cases filter <;> rfl

/-- A template is replaced part by part. -/
@[simp] theorem map_template (f : S → T) (parts : List (Template.Part S)) :
    (template parts).map f = template (parts.map (·.map f)) :=
  congrArg template (List.attach_map_val (f := Template.Part.map f))

/-- **Replacing keeps the places** of the conditions in a query. -/
theorem nested_map (f : S → T) (q : Subquery S) : (q.map f).nested = q.nested.map f := by
  cases q with
  | select table columns filter => cases filter <;> rfl
  | template parts =>
    simp [nested, List.flatMap_map, List.map_flatMap, Template.Part.nested_map]

/-- Replacing twice is replacing once. -/
theorem map_map (g : T → U) (f : S → T) (q : Subquery S) :
    (q.map f).map g = q.map fun s => g (f s) := by
  cases q with
  | select table columns filter => cases filter <;> rfl
  | template parts =>
    rw [map_template, map_template, map_template, List.map_map]
    exact congrArg template (List.map_congr_left fun p _ => p.map_map g f)

/-- Replacing each condition by itself changes nothing. -/
theorem map_id (q : Subquery S) : q.map id = q := by
  cases q with
  | select table columns filter => cases filter <;> rfl
  | template parts =>
    rw [map_template]
    exact congrArg template (List.map_id'' Template.Part.map_id parts)

end Subquery

/-! ### A condition is smaller than what it stands in -/

/-- What stands in a part is smaller than the part. -/
theorem Template.Part.sizeOf_nested_lt [SizeOf S] {p : Template.Part S} {s : S}
    (h : s ∈ p.nested) : sizeOf s < sizeOf p := by
  cases p <;> simp_all [nested]

/-- **What stands in a query is smaller than the query.** -/
theorem Subquery.sizeOf_nested_lt [SizeOf S] {q : Subquery S} {s : S}
    (h : s ∈ q.nested) : sizeOf s < sizeOf q := by
  cases q with
  | select table columns filter =>
    cases filter with
    | none => simp [nested] at h
    | some c =>
      obtain rfl : s = c := by simpa [nested] using h
      simp
      omega
  | template parts =>
    obtain ⟨p, hp, hs⟩ := List.mem_flatMap.1 h
    have := Template.Part.sizeOf_nested_lt hs
    have := List.sizeOf_lt_of_mem hp
    simp
    omega

end WhereClause
