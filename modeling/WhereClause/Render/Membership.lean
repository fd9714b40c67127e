/-
WhereClause/Render/Membership.lean

Membership tests.  `IN` says nothing about null, so a null among the members
becomes a test of its own; a single member needs no list and is compared with
the column.  Several columns are tested together against rows of as many
entries.  A test against nothing, or of no column, is false, and vacuous when
negated.
-/
import WhereClause.Condition
import WhereClause.Render.Basic

namespace WhereClause.Membership

variable {S T : Type}

/-! ### One column -/

/-- The entry of a member under a column: a row holds it by name. -/
def entryUnder (column : PlainColumn) : Operand S → Option (Operand S)
  | .row entries => entries.lookup column.key
  | other => some other

theorem entryUnder_map (f : S → T) (column : PlainColumn) (o : Operand S) :
    entryUnder column (o.map f) = (entryUnder column o).map (Operand.map f) := by
  cases o with
  | scalar s =>
    show entryUnder column ((Operand.scalar s).map f) = some ((Operand.scalar s).map f)
    rw [Operand.map_scalar]
    rfl
  | list items =>
    show entryUnder column ((Operand.list items).map f) = some ((Operand.list items).map f)
    rw [Operand.map_list]
    rfl
  | row entries => rw [Operand.map_row, entryUnder, entryUnder, Keyed.lookup_map]

/-- How a member is written; a null or absent one is not. -/
def renderMember (d : Dialect) (operator : String) :
    Option (Operand (Render String)) → Render (Option String)
  | none | some (.scalar .null) => pure none
  | some (.scalar (.value v)) => do return some (← d.bind v)
  | some (.scalar (.raw sql)) => pure (some sql.text)
  | some other => Render.fail (.invalidOperand operator (.notScalar other.shape))

/-- The test against the members that are not null, if there are any. -/
def listTest (column : String) (polarity : Polarity) : List String → Option String
  | [] => none
  | [member] =>
    match polarity with
    | .positive => some (column ++ " = " ++ member)
    | .negative => some (column ++ " <> " ++ member)
  | members =>
    some (column ++ " " ++ polarity.apply "IN" ++ " " ++
      parenthesized (", ".intercalate members))

def nullTest (column : String) : Polarity → String
  | .positive => column ++ " IS NULL"
  | .negative => column ++ " IS NOT NULL"

/-- To be in a set with a null is to be in the rest or null; not to be in it is
to be neither. -/
def withNullTest (test nullTest : String) : Polarity → String
  | .positive => parenthesized (test ++ " OR " ++ nullTest)
  | .negative => parenthesized (test ++ " AND " ++ nullTest)

/-- The whole test against members as they are written, null being `none`. -/
def test (column : String) (polarity : Polarity) (members : List (Option String)) : String :=
  match listTest column polarity (members.filterMap id), members.any Option.isNone with
  | none, false => polarity.overNothing
  | none, true => nullTest column polarity
  | some t, false => t
  | some t, true => withNullTest t (nullTest column polarity) polarity

def renderSingle (d : Dialect) (column : PlainColumn) (polarity : Polarity)
    (members : List (Operand (Render String))) : Render String := do
  let members ← members.mapM fun m =>
    renderMember d (polarity.apply "IN") (entryUnder column m)
  return test (column.text d) polarity members

/-! ### Several columns -/

def columnsText (d : Dialect) : List PlainColumn → String
  | [column] => column.text d
  | columns => parenthesized (", ".intercalate (columns.map (·.text d)))

/-- The first items of a list, by their positions; some may be absent. -/
theorem range_map_getElem? {α : Type} (as : List α) (n : Nat) :
    (List.range n).map (fun i => as[i]?) =
      (as.take n).map some ++ List.replicate (n - as.length) none := by
  induction as generalizing n with
  | nil => simp [List.map_const']
  | cons a as ih =>
    cases n with
    | zero => simp
    | succ n =>
      have htail : (List.range n).map (fun i => (a :: as)[i + 1]?) = (List.range n).map (as[·]?) :=
        List.map_congr_left fun _ _ => List.getElem?_cons_succ
      rw [List.range_succ_eq_map, List.map_cons, List.map_map]
      show some a :: (List.range n).map (fun i => (a :: as)[i + 1]?) = _
      rw [htail, ih, List.take_succ_cons, List.map_cons, List.length_cons, Nat.add_sub_add_right]
      rfl

/-- The entries of a row under the columns, by name or by position. -/
def rowEntries (operator : String) (columns : List PlainColumn) :
    Operand S → Except Error (List (Option (Operand S)))
  | .row entries => .ok (columns.map fun c => entries.lookup c.key)
  | .list items => .ok ((List.range columns.length).map fun i => items[i]?)
  | other => .error (.invalidOperand operator (.notRow other.shape))

theorem rowEntries_map (f : S → T) (operator : String) (columns : List PlainColumn)
    (o : Operand S) :
    rowEntries operator columns (o.map f) =
      (rowEntries operator columns o).map (List.map (Option.map (Operand.map f))) := by
  cases o with
  | scalar s =>
    have hshape := Operand.shape_map f (.scalar s)
    rw [Operand.map_scalar] at hshape ⊢
    show Except.error (Error.invalidOperand operator (.notRow (Operand.scalar (s.map f)).shape)) = _
    rw [hshape]
    rfl
  | list items => simp [rowEntries, Except.map]
  | row entries => simp [rowEntries, Except.map, Keyed.lookup_map]

/-- The entries of a row stand in the row. -/
theorem mem_nested_of_rowEntries {operator : String} {columns : List PlainColumn}
    {row o : Operand S} {entries : List (Option (Operand S))} {t : S}
    (h : rowEntries operator columns row = .ok entries) (ho : some o ∈ entries)
    (ht : t ∈ o.nested) : t ∈ row.nested := by
  cases row with
  | scalar s => simp [rowEntries] at h
  | list items =>
    cases h
    obtain ⟨i, -, hi⟩ := List.mem_map.1 ho
    rw [Operand.nested]
    exact Operand.mem_nestedItems (List.mem_of_getElem? hi) ht
  | row es =>
    cases h
    obtain ⟨c, -, hc⟩ := List.mem_map.1 ho
    rw [Operand.nested]
    exact Operand.mem_nestedEntries (Keyed.mem_of_lookup hc) ht

/-- An absent entry is null. -/
def renderEntry (d : Dialect) (operator : String) :
    Option (Operand (Render String)) → Render String
  | none => pure "NULL"
  | some (.scalar s) => s.render d
  | some other => Render.fail (.invalidOperand operator (.notScalar other.shape))

def renderRow (d : Dialect) (operator : String) (columns : List PlainColumn)
    (row : Operand (Render String)) : Render String := do
  let entries ← Render.ofExcept (rowEntries operator columns row)
  return parenthesized (", ".intercalate (← entries.mapM (renderEntry d operator)))

def renderRows (d : Dialect) (columns : List PlainColumn) (polarity : Polarity)
    (rows : List (Operand (Render String))) : Render String := do
  let rows ← rows.mapM (renderRow d (polarity.apply "IN") columns)
  return columnsText d columns ++ " " ++ polarity.apply "IN" ++ " " ++
    parenthesized (", ".intercalate rows)

/-! ### All tests -/

def render (d : Dialect) (columns : List PlainColumn) (polarity : Polarity) :
    Candidates (Render String) → Render String
  | .subquery q =>
    match columns with
    | [] => pure polarity.overNothing
    | columns => do
      return columnsText d columns ++ " " ++ polarity.apply "IN" ++ " " ++
        parenthesized (← q.render d)
  | .members [] => pure polarity.overNothing
  | .members members =>
    match columns with
    | [] => pure polarity.overNothing
    | [column] => renderSingle d column polarity members
    | columns => renderRows d columns polarity members

end WhereClause.Membership
