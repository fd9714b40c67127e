/-
WhereClause/Operand.lean

What stands on the two sides of a test.  A column is what is tested; an operand
is what it is tested against: a scalar, a list, or a row with an entry for each
column.  Only scalars and columns can hold a sub-query, and conditions stand in
them only there; `nested`, `pmap` and `map` reach through to these.
-/
import WhereClause.Error
import WhereClause.Subquery

namespace WhereClause

/-- SQL that is written as it is; never to be made from a user's input. -/
structure RawSql where
  text : String
  deriving DecidableEq

/-- Empty raw SQL is a condition that asks for nothing. -/
def RawSql.isEmpty (sql : RawSql) : Bool := sql.text.isEmpty

/-- A single value, or what stands for one. -/
inductive Scalar (S : Type) where
  | null
  | value (v : Value)
  | raw (sql : RawSql)
  | subquery (q : Subquery S)

/-- What a test is given: as deep as it was written, and not judged yet. -/
inductive Operand (S : Type) where
  | scalar (s : Scalar S)
  | list (items : List (Operand S))
  | row (entries : List (String × Operand S))

/-- What a test is about. A name is quoted, unless it is a call. -/
inductive Column (S : Type) where
  | name (n : String)
  | raw (sql : RawSql)
  | subquery (q : Subquery S)

/-- A column that is no sub-query. -/
inductive PlainColumn where
  | name (n : String)
  | raw (sql : RawSql)

/-- The key under which a row holds the entry for a column. -/
def PlainColumn.key : PlainColumn → String
  | .name n => n
  | .raw sql => sql.text

variable {S T U : Type}

/-! ### Shapes -/

/-- How an error names what it was given. -/
def Scalar.shape : Scalar S → Shape
  | .null => .null
  | .value v => .value v.type
  | .raw _ => .raw
  | .subquery _ => .subquery

/-- Members and entries have no part in the shape. -/
def Operand.shape : Operand S → Shape
  | .scalar s => s.shape
  | .list _ => .list
  | .row _ => .row

/-! ### What stands in them -/

/-- The conditions inside a scalar are those of its sub-query. -/
def Scalar.nested : Scalar S → List S
  | .subquery q => q.nested
  | _ => []

/-- Replace each condition by what is made of it, knowing that it stands in the scalar. -/
def Scalar.pmap : (s : Scalar S) → ((t : S) → t ∈ s.nested → T) → Scalar T
  | .null, _ => .null
  | .value v, _ => .value v
  | .raw sql, _ => .raw sql
  | .subquery q, f => .subquery (q.pmap f)

def Scalar.map (f : S → T) (s : Scalar S) : Scalar T := s.pmap fun t _ => f t

/-- What stood in a scalar was replaced where it stood. -/
theorem Scalar.nested_map (f : S → T) (s : Scalar S) : (s.map f).nested = s.nested.map f := by
  cases s with
  | subquery q => exact q.nested_map f
  | _ => rfl

/-- To replace twice is to replace once. -/
theorem Scalar.map_map (g : T → U) (f : S → T) (s : Scalar S) :
    (s.map f).map g = s.map fun t => g (f t) := by
  cases s with
  | subquery q => exact congrArg Scalar.subquery (q.map_map g f)
  | _ => rfl

/-- To replace each condition by itself is to leave the scalar as it is. -/
theorem Scalar.map_id (s : Scalar S) : s.map id = s := by
  cases s with
  | subquery q => exact congrArg Scalar.subquery q.map_id
  | _ => rfl

/-- The conditions inside a column are those of its sub-query. -/
def Column.nested : Column S → List S
  | .subquery q => q.nested
  | _ => []

/-- Replace each condition by what is made of it, knowing that it stands in the column. -/
def Column.pmap : (c : Column S) → ((t : S) → t ∈ c.nested → T) → Column T
  | .name n, _ => .name n
  | .raw sql, _ => .raw sql
  | .subquery q, f => .subquery (q.pmap f)

def Column.map (f : S → T) (c : Column S) : Column T := c.pmap fun t _ => f t

theorem Column.nested_map (f : S → T) (c : Column S) : (c.map f).nested = c.nested.map f := by
  cases c with
  | subquery q => exact q.nested_map f
  | _ => rfl

theorem Column.map_map (g : T → U) (f : S → T) (c : Column S) :
    (c.map f).map g = c.map fun t => g (f t) := by
  cases c with
  | subquery q => exact congrArg Column.subquery (q.map_map g f)
  | _ => rfl

theorem Column.map_id (c : Column S) : c.map id = c := by
  cases c with
  | subquery q => exact congrArg Column.subquery q.map_id
  | _ => rfl

namespace Operand

mutual

/-- The conditions inside an operand, from left to right and at any depth. -/
def nested : Operand S → List S
  | .scalar s => s.nested
  | .list items => nestedItems items
  | .row entries => nestedEntries entries

/-- The conditions inside the members of a list. -/
def nestedItems : List (Operand S) → List S
  | [] => []
  | o :: os => o.nested ++ nestedItems os

/-- The conditions inside the entries of a row; a key holds none. -/
def nestedEntries : List (String × Operand S) → List S
  | [] => []
  | (_, o) :: es => o.nested ++ nestedEntries es

end

/-- What stands in a member stands in the list. -/
theorem mem_nestedItems {os : List (Operand S)} {o : Operand S} {t : S} (ho : o ∈ os)
    (ht : t ∈ o.nested) : t ∈ nestedItems os := by
  induction os with
  | nil => simp at ho
  | cons p os ih =>
    rw [nestedItems]
    rcases List.mem_cons.1 ho with rfl | ho
    · exact List.mem_append_left _ ht
    · exact List.mem_append_right _ (ih ho)

/-- What stands in an entry stands in the row. -/
theorem mem_nestedEntries {es : List (String × Operand S)} {e : String × Operand S} {t : S}
    (he : e ∈ es) (ht : t ∈ e.2.nested) : t ∈ nestedEntries es := by
  induction es with
  | nil => simp at he
  | cons p es ih =>
    rw [nestedEntries]
    rcases List.mem_cons.1 he with rfl | he
    · exact List.mem_append_left _ ht
    · exact List.mem_append_right _ (ih he)

mutual

/-- Replace each condition by what is made of it, knowing that it stands in the operand. -/
def pmap : (o : Operand S) → ((t : S) → t ∈ o.nested → T) → Operand T
  | .scalar s, f => .scalar (s.pmap fun t h => f t (by rwa [nested]))
  | .list items, f => .list (pmapItems items fun t h => f t (by rwa [nested]))
  | .row entries, f => .row (pmapEntries entries fun t h => f t (by rwa [nested]))

/-- A member keeps its place. -/
def pmapItems : (os : List (Operand S)) → ((t : S) → t ∈ nestedItems os → T) →
    List (Operand T)
  | [], _ => []
  | o :: os, f =>
    (o.pmap fun t h => f t (by rw [nestedItems]; exact List.mem_append_left _ h)) ::
      pmapItems os fun t h => f t (by rw [nestedItems]; exact List.mem_append_right _ h)

/-- An entry keeps its place and its key. -/
def pmapEntries : (es : List (String × Operand S)) → ((t : S) → t ∈ nestedEntries es → T) →
    List (String × Operand T)
  | [], _ => []
  | (k, o) :: es, f =>
    (k, o.pmap fun t h => f t (by rw [nestedEntries]; exact List.mem_append_left _ h)) ::
      pmapEntries es fun t h => f t (by rw [nestedEntries]; exact List.mem_append_right _ h)

end

/-- Replace each condition by what is made of it, wherever it stands. -/
def map (f : S → T) (o : Operand S) : Operand T := o.pmap fun t _ => f t

/-- Where the place does not matter, a list is replaced member by member. -/
@[simp] theorem pmapItems_eq_map (f : S → T) (os : List (Operand S)) :
    (pmapItems os fun t _ => f t) = os.map (map f) := by
  induction os with
  | nil => rfl
  | cons o os ih => rw [pmapItems, ih]; rfl

/-- Where the place does not matter, a row is replaced entry by entry. -/
@[simp] theorem pmapEntries_eq_map (f : S → T) (es : List (String × Operand S)) :
    (pmapEntries es fun t _ => f t) = es.map fun e => (e.1, e.2.map f) := by
  induction es with
  | nil => rfl
  | cons e es ih => rw [pmapEntries, ih]; rfl

@[simp] theorem map_scalar (f : S → T) (s : Scalar S) : (scalar s).map f = scalar (s.map f) := by
  rw [map, pmap]; rfl

@[simp] theorem map_list (f : S → T) (items : List (Operand S)) :
    (list items).map f = list (items.map (map f)) := by
  rw [map, pmap, pmapItems_eq_map]

@[simp] theorem map_row (f : S → T) (entries : List (String × Operand S)) :
    (row entries).map f = row (entries.map fun e => (e.1, e.2.map f)) := by
  rw [map, pmap, pmapEntries_eq_map]

/-- What stands in an operand has no part in its shape. -/
theorem shape_map (f : S → T) (o : Operand S) : (o.map f).shape = o.shape := by
  cases o with
  | scalar s =>
    rw [map_scalar]
    cases s <;> rfl
  | list items => rw [map_list, shape, shape]
  | row entries => rw [map_row, shape, shape]

mutual

/-- **Replacing keeps the places**: what stands in the result is what was made of what stood
there, in the same order. -/
theorem nested_map (f : S → T) : ∀ o : Operand S, (o.map f).nested = o.nested.map f
  | .scalar s => by rw [map_scalar, nested, nested, Scalar.nested_map]
  | .list items => by rw [map_list, nested, nested, nestedItems_map]
  | .row entries => by rw [map_row, nested, nested, nestedEntries_map]

theorem nestedItems_map (f : S → T) : ∀ os : List (Operand S),
    nestedItems (os.map (map f)) = (nestedItems os).map f
  | [] => rfl
  | o :: os => by
    rw [List.map_cons, nestedItems, nestedItems, List.map_append, nested_map f o,
      nestedItems_map f os]

theorem nestedEntries_map (f : S → T) : ∀ es : List (String × Operand S),
    nestedEntries (es.map fun e => (e.1, e.2.map f)) = (nestedEntries es).map f
  | [] => rfl
  | (_, o) :: es => by
    rw [List.map_cons, nestedEntries, nestedEntries, List.map_append, nested_map f o,
      nestedEntries_map f es]

end

mutual

/-- To replace twice is to replace once, at any depth. -/
theorem map_map (g : T → U) (f : S → T) :
    ∀ o : Operand S, (o.map f).map g = o.map fun t => g (f t)
  | .scalar s => by rw [map_scalar, map_scalar, map_scalar, Scalar.map_map]
  | .list items => by rw [map_list, map_list, map_list, map_map_items g f items]
  | .row entries => by rw [map_row, map_row, map_row, map_map_entries g f entries]

theorem map_map_items (g : T → U) (f : S → T) :
    ∀ os : List (Operand S), (os.map (map f)).map (map g) = os.map (map fun t => g (f t))
  | [] => rfl
  | o :: os => by
    rw [List.map_cons, List.map_cons, List.map_cons, map_map g f o, map_map_items g f os]

theorem map_map_entries (g : T → U) (f : S → T) : ∀ es : List (String × Operand S),
    (es.map fun e => (e.1, e.2.map f)).map (fun e => (e.1, e.2.map g)) =
      es.map fun e => (e.1, e.2.map fun t => g (f t))
  | [] => rfl
  | (_, o) :: es => by
    rw [List.map_cons, List.map_cons, List.map_cons, map_map g f o, map_map_entries g f es]

end

mutual

/-- To replace each condition by itself is to leave the operand as it is. -/
theorem map_id : ∀ o : Operand S, o.map id = o
  | .scalar s => by rw [map_scalar, Scalar.map_id]
  | .list items => by rw [map_list, map_id_items items]
  | .row entries => by rw [map_row, map_id_entries entries]

theorem map_id_items : ∀ os : List (Operand S), os.map (map id) = os
  | [] => rfl
  | o :: os => by rw [List.map_cons, map_id o, map_id_items os]

theorem map_id_entries : ∀ es : List (String × Operand S),
    (es.map fun e => (e.1, e.2.map id)) = es
  | [] => rfl
  | (_, o) :: es => by rw [List.map_cons, map_id o, map_id_entries es]

end

end Operand

/-! ### A condition is smaller than what it stands in -/

/-- What stands in a scalar is smaller than the scalar. -/
theorem Scalar.sizeOf_nested_lt [SizeOf S] {s : Scalar S} {t : S} (h : t ∈ s.nested) :
    sizeOf t < sizeOf s := by
  cases s <;> simp_all [nested]
  next q => have := Subquery.sizeOf_nested_lt h; omega

theorem Column.sizeOf_nested_lt [SizeOf S] {c : Column S} {t : S} (h : t ∈ c.nested) :
    sizeOf t < sizeOf c := by
  cases c <;> simp_all [nested]
  next q => have := Subquery.sizeOf_nested_lt h; omega

namespace Operand

mutual

/-- **What stands in an operand is smaller**, at any depth, so that it is safe to go down to it.
-/
theorem sizeOf_nested_lt [SizeOf S] : ∀ (o : Operand S) (t : S), t ∈ o.nested →
    sizeOf t < sizeOf o
  | .scalar s, t, h => by
    rw [nested] at h
    have := Scalar.sizeOf_nested_lt h
    simp
    omega
  | .list items, t, h => by
    rw [nested] at h
    have := sizeOf_nestedItems_lt items t h
    simp
    omega
  | .row entries, t, h => by
    rw [nested] at h
    have := sizeOf_nestedEntries_lt entries t h
    simp
    omega

theorem sizeOf_nestedItems_lt [SizeOf S] : ∀ (os : List (Operand S)) (t : S),
    t ∈ nestedItems os → sizeOf t < sizeOf os
  | [], t, h => by simp [nestedItems] at h
  | o :: os, t, h => by
    rw [nestedItems] at h
    simp only [List.cons.sizeOf_spec]
    rcases List.mem_append.1 h with h | h
    · have := sizeOf_nested_lt o t h; omega
    · have := sizeOf_nestedItems_lt os t h; omega

theorem sizeOf_nestedEntries_lt [SizeOf S] : ∀ (es : List (String × Operand S)) (t : S),
    t ∈ nestedEntries es → sizeOf t < sizeOf es
  | [], t, h => by simp [nestedEntries] at h
  | (k, o) :: es, t, h => by
    rw [nestedEntries] at h
    simp only [List.cons.sizeOf_spec, Prod.mk.sizeOf_spec]
    rcases List.mem_append.1 h with h | h
    · have := sizeOf_nested_lt o t h; omega
    · have := sizeOf_nestedEntries_lt es t h; omega

end

end Operand

end WhereClause
