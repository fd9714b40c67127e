/-
WhereClause/Proofs/Open/Embedding.lean

The specifications that hold no code of a caller's own, among those that do.  They are read
and written alike, so with the readers of the library compiling comes to an end for them,
in what `WhereClause.Spec.compile` says; all that is known of that holds here.

Each part of a specification is read as the copy of what it was read as before
(`Spec.toOperand_embed` and its like), so each reader of the library makes of copies a node
that settles to the copy of the condition (`Makes.form`, and `Registry.makes_parse` for dispatch).

Main result: a copy is compiled as the original, in as many calls as it has levels
(`Spec.compileWithin_embed`, `Compiler.endsIn_embed`).
-/
import WhereClause.Open.Compiler
import WhereClause.Proofs.Open.Settled
import WhereClause.Proofs.Termination

namespace WhereClause.Open

variable {S T : Type}

/-! ### Conditions as nodes -/

/-- The values of a membership test, as they may have been given. -/
def candidatesOperand : Candidates S → Operand S
  | .members items => .list items
  | .subquery q => .scalar (.subquery q)

/-- The operand that a pattern was read from. -/
def patternOperand : Pattern S → Operand S
  | .text s => .scalar (.value (.text s))
  | .raw sql => .scalar (.raw sql)
  | .subquery q => .scalar (.subquery q)

/-- A node that settles to the condition. -/
def Node.ofCondition : Condition S → Node S
  | .hash tests => .hash (tests.map fun e => (e.1, e.2.operand))
  | .comparison column operator value => .comparison column operator.text (.scalar value)
  | .membership columns polarity candidates =>
    .membership columns polarity (candidatesOperand candidates)
  | .between column polarity low high => .between column polarity (.scalar low) (.scalar high)
  | .betweenColumns value polarity low high =>
    .betweenColumns (.scalar value) polarity low high
  | .pattern column operator patterns escaping =>
    .pattern column operator (.list (patterns.map patternOperand)) escaping
  | .negation inner => .negation inner
  | .junction operator operands => .junction operator operands
  | .existence polarity q => .existence polarity q

/-- The checks that have been made once are met when they are made again. -/
theorem Node.settle_ofCondition (x : Condition S) : (ofCondition x).settle = .ok x := by
  cases x with
  | hash tests => exact Condition.ofTests_eq_ok.2 ⟨tests, rfl, rfl⟩
  | comparison column operator value =>
    have hoperator : ComparisonOperator.ofToken? operator.text = some operator :=
      dif_pos operator.isComparison_text
    exact Attempt.bind_eq_ok.2 ⟨operator, Operator.known_eq_ok.2 hoperator, rfl⟩
  | membership columns polarity candidates => cases candidates <;> rfl
  | pattern column operator patterns escaping =>
    have hpattern (p : Pattern S) : Pattern.ofOperand operator.core (patternOperand p) = .ok p := by
      cases p <;> rfl
    have hpatterns : (patterns.map patternOperand).mapM (Pattern.ofOperand operator.core) =
        .ok patterns := by
      rw [List.mapM_map]
      simp only [Function.comp_def, hpattern]
      exact List.mapM_pure.trans (congrArg Except.ok (List.map_id patterns))
    exact Attempt.bind_eq_ok.2 ⟨patterns, hpatterns, rfl⟩
  | between | betweenColumns | negation | junction | existence => rfl

/-- An error names the same kind of condition. -/
theorem Node.kind_ofCondition (x : Condition S) : (ofCondition x).kind = x.kind := by
  cases x <;> rfl

/-! ### Copies -/

namespace Spec

/-- The copy of a specification. -/
def embed : WhereClause.Spec → Spec
  | .scalar s => .scalar (s.pmap fun t _ => embed t)
  | .list items => .list (items.attach.map fun t => embed t.1)
  | .map entries => .map (entries.attach.map fun e => (e.1.1, embed e.1.2))
  | .condition x => .node (.ofCondition (x.pmap fun t _ => embed t))
termination_by s => sizeOf s
decreasing_by
  · next ht =>
    have := Scalar.sizeOf_nested_lt ht
    simp
    omega
  · have := List.sizeOf_lt_of_mem t.2
    simp
    omega
  · have := List.sizeOf_lt_of_mem e.2
    obtain ⟨⟨k, t⟩, h⟩ := e
    simp_all
    omega
  · next ht =>
    have := Condition.sizeOf_nested_lt ht
    simp
    omega

/-- What is embedded keeps its shape, constructor by constructor. -/
@[simp] theorem embed_scalar (s : Scalar WhereClause.Spec) :
    embed (.scalar s) = .scalar (s.map embed) := by
  rw [embed]
  rfl

@[simp] theorem embed_list (items : List WhereClause.Spec) :
    embed (.list items) = .list (items.map embed) := by
  rw [embed, List.attach_map_val (f := embed)]

@[simp] theorem embed_map (entries : List (String × WhereClause.Spec)) :
    embed (.map entries) = .map (entries.map fun e => (e.1, embed e.2)) := by
  rw [embed, List.attach_map_val (f := fun e : String × WhereClause.Spec => (e.1, embed e.2))]

/-- A typed condition becomes the node that settles to it. -/
@[simp] theorem embed_condition (x : Condition WhereClause.Spec) :
    embed (.condition x) = .node (.ofCondition (x.map embed)) := by
  rw [embed]
  rfl

/-- An error names the same shape. -/
theorem shape_embed (s : WhereClause.Spec) : (embed s).shape = s.shape := by
  cases s with
  | scalar s =>
    rw [embed_scalar]
    cases s <;> rfl
  | list items =>
    rw [embed_list]
    rfl
  | map entries =>
    rw [embed_map]
    rfl
  | condition x =>
    rw [embed_condition, shape, Node.kind_ofCondition]
    cases x <;> rfl

/-! ### Copies in their places -/

/-- A column is read from what is embedded, as it was, or refused with the same error. -/
theorem toColumn_embed (operator : String) (s : WhereClause.Spec) :
    (embed s).toColumn operator = (Column.ofSpec operator s).map (Column.map embed) := by
  have hshape := shape_embed s
  cases s with
  | scalar s =>
    rw [embed_scalar]
    cases s with
    | value v =>
      -- Only a text is looked at, for whether it is empty.
      cases v with
      | text t =>
        show (if t.isEmpty then _ else _) = Except.map _ (if t.isEmpty then _ else _)
        split <;> rfl
      | _ => rfl
    | null | raw | subquery => rfl
  | list items =>
    rw [embed_list]
    rfl
  | map entries =>
    rw [embed_map]
    rfl
  | condition x =>
    -- The function is compiled to a match on the shape, which a copy has from its original.
    rw [embed_condition] at hshape ⊢
    rw [toColumn, hshape]
    · rfl
    all_goals simp

mutual

/-- An operand is read from a copy as from the original. The induction is on the specification,
with one statement for it, its items and its entries. -/
theorem toOperand_embed (operator : String) : ∀ s : WhereClause.Spec,
    (embed s).toOperand operator = (Operand.ofSpec operator s).map (Operand.map embed)
  | .scalar s => by
    rw [embed_scalar, toOperand, Operand.ofSpec]
    exact congrArg Except.ok (Operand.map_scalar embed s).symm
  | .list items => by
    rw [embed_list, toOperand, Operand.ofSpec, toOperands_embed operator items]
    cases Operand.ofItems operator items with
    | error e => rfl
    | ok os => exact congrArg Except.ok (Operand.map_list embed os).symm
  | .map entries => by
    rw [embed_map, toOperand, Operand.ofSpec, toEntries_embed operator entries]
    cases Operand.ofEntries operator entries with
    | error e => rfl
    | ok es => exact congrArg Except.ok (Operand.map_row embed es).symm
  | .condition x => by
    rw [embed_condition, toOperand, Operand.ofSpec, Node.kind_ofCondition]
    cases x <;> rfl

/-- Items are read in turn, and the first error is the same one. -/
theorem toOperands_embed (operator : String) : ∀ ss : List WhereClause.Spec,
    toOperands operator (ss.map embed) =
      (Operand.ofItems operator ss).map (List.map (Operand.map embed))
  | [] => rfl
  | s :: ss => by
    rw [List.map_cons, toOperands, Operand.ofItems, toOperand_embed operator s,
      toOperands_embed operator ss]
    cases Operand.ofSpec operator s with
    | error e => rfl
    | ok o => cases Operand.ofItems operator ss <;> rfl

/-- Entries are read in turn, and keep their keys. -/
theorem toEntries_embed (operator : String) : ∀ es : List (String × WhereClause.Spec),
    toEntries operator (es.map fun e => (e.1, embed e.2)) =
      (Operand.ofEntries operator es).map (List.map fun e => (e.1, e.2.map embed))
  | [] => rfl
  | (k, s) :: es => by
    rw [List.map_cons, toEntries, Operand.ofEntries, toOperand_embed operator s,
      toEntries_embed operator es]
    cases Operand.ofSpec operator s with
    | error e => rfl
    | ok o => cases Operand.ofEntries operator es <;> rfl

end

/-- Here a scalar stays an operand that has been checked, there it becomes a scalar. -/
theorem toScalar_embed (operator : String) (s : WhereClause.Spec) :
    (embed s).toScalar operator =
      (Scalar.ofSpec operator s).map fun x => .scalar (x.map embed) := by
  rw [toScalar, toOperand_embed, Scalar.ofSpec]
  cases Operand.ofSpec operator s with
  | error e => rfl
  | ok o =>
    -- The open layer checks and keeps the operand, so the check is moved to the original first.
    show (checkScalar operator (o.map embed) >>= fun _ => .ok (o.map embed)) = _
    rw [checkScalar_map]
    cases o with
    | scalar x => rw [Operand.map_scalar]; rfl
    | list | row => rfl

/-- A replacement is a text, which is embedded as itself. -/
theorem toReplacement_embed (operator key : String) (s : WhereClause.Spec) :
    toReplacement operator (key, embed s) = Escaping.replacement operator (key, s) := by
  have hshape := shape_embed s
  -- The key is judged before the text: only a single character is replaced.
  rcases hkey : key.toList with - | ⟨c, - | ⟨c', cs⟩⟩
  · simp only [toReplacement, Escaping.replacement, hkey]
  · simp only [toReplacement, Escaping.replacement, hkey]
    cases s with
    | scalar s =>
      rw [embed_scalar]
      cases s with
      | value v => cases v <;> rfl
      | null | raw | subquery => rfl
    | list items =>
      rw [embed_list]
      rfl
    | map entries =>
      rw [embed_map]
      rfl
    | condition x =>
      rw [embed_condition] at hshape ⊢
      simp only [hshape]
  · simp only [toReplacement, Escaping.replacement, hkey]

/-- An escaping holds nothing that could be embedded. -/
theorem toEscaping_embed (operator : String) (s : WhereClause.Spec) :
    (embed s).toEscaping operator = Escaping.ofSpec operator s := by
  have hshape := shape_embed s
  cases s with
  | scalar s =>
    rw [embed_scalar]
    cases s with
    | value v =>
      cases v with
      | bool b => cases b <;> rfl
      | _ => rfl
    | null | raw | subquery => rfl
  | list items =>
    rw [embed_list]
    rfl
  | map entries =>
    rw [embed_map, toEscaping, Escaping.ofSpec, List.mapM_map]
    simp only [Function.comp_def, toReplacement_embed]
  | condition x =>
    rw [embed_condition] at hshape ⊢
    rw [toEscaping, hshape]
    · rfl
    all_goals simp

end Spec

/-! ### Readers -/

/-- The reader that a form of the library has. -/
def reader : Builtin → Reader
  | .comparison => Node.readComparison
  | .membership => Node.readMembership
  | .between => Node.readBetween
  | .betweenColumns => Node.readBetweenColumns
  | .pattern => Node.readPattern
  | .negation => Node.readNegation
  | .junction => Node.readJunction
  | .existence => Node.readExistence

namespace Makes

open WhereClause.Open.Spec (embed toColumn_embed toOperand_embed toScalar_embed toEscaping_embed)

/-- A wrong number of operands is refused by both. -/
theorem arity (operator : String) (expected : Arity) (operands : List WhereClause.Spec) :
    Makes embed (.error (.arity operator expected (operands.map embed).length))
      (.error (.arity operator expected operands.length)) := by
  rw [List.length_map]
  exact .error _

/-- The readers of the library make of embedded operands a node that settles to what they made
of the operands, or fail with the same error. -/
theorem readComparison (operator : String) (operands : List WhereClause.Spec) :
    Makes embed (Node.readComparison operator (operands.map embed))
      (Condition.readComparison operator operands) := by
  match operands with
  | [column, value] =>
    show Makes embed ((embed column).toColumn operator >>= fun column =>
      (embed value).toScalar operator >>= fun value => Node.ofComparison column operator value) _
    -- The reads go in the order of the program, so the first that fails is the same on both
    -- sides.
    rw [toColumn_embed, toScalar_embed]
    apply Makes.bind
    intro column
    apply Makes.bind
    intro x
    rw [← Operand.map_scalar]
    exact makes_ofComparison embed column operator (.scalar x)
  | [] => exact arity operator _ []
  | [s] => exact arity operator _ [s]
  | s :: t :: u :: ss => exact arity operator _ (s :: t :: u :: ss)

/-- One column or a list of columns. -/
theorem readColumns_embed (operator : String) (s : WhereClause.Spec) :
    Node.readColumns operator (embed s) =
      (Condition.readColumns operator s).map (List.map (Column.map embed)) := by
  -- What is not a list is read as one column, whichever shape it has.
  have hsingle : (do return [← (embed s).toColumn operator] : Except Error _) =
      (do return [← Column.ofSpec operator s] : Except Error _).map
        (List.map (Column.map embed)) := by
    rw [toColumn_embed]
    cases Column.ofSpec operator s <;> rfl
  cases s with
  | list items =>
    rw [Spec.embed_list, Node.readColumns, Condition.readColumns, List.mapM_map]
    simp only [Function.comp_def, toColumn_embed]
    -- The induction is on the items alone, and the fact on single columns would be carried
    -- along.
    clear hsingle
    induction items with
    | nil => rfl
    | cons s ss ih =>
      rw [List.mapM_cons, List.mapM_cons, ih]
      cases Column.ofSpec operator s with
      | error e => rfl
      | ok c => cases ss.mapM (Column.ofSpec operator) <;> rfl
  | scalar x =>
    rw [Spec.embed_scalar] at hsingle ⊢
    exact hsingle
  | map entries =>
    rw [Spec.embed_map] at hsingle ⊢
    exact hsingle
  | condition x =>
    rw [Spec.embed_condition] at hsingle ⊢
    exact hsingle

/-- What the columns are among is not judged until it is written, on both sides. -/
theorem readMembership (operator : String) (operands : List WhereClause.Spec) :
    Makes embed (Node.readMembership operator (operands.map embed))
      (Condition.readMembership operator operands) := by
  match operands with
  | [columns, values] =>
    show Makes embed (Node.readColumns operator (embed columns) >>= fun columns =>
      (embed values).toOperand operator >>= fun values =>
        Node.ofMembership columns operator values) _
    rw [readColumns_embed, toOperand_embed]
    apply Makes.bind
    intro columns
    apply Makes.bind
    intro values
    exact makes_ofMembership embed columns operator values
  | [] => exact arity operator _ []
  | [s] => exact arity operator _ [s]
  | s :: t :: u :: ss => exact arity operator _ (s :: t :: u :: ss)

theorem readBetween (operator : String) (operands : List WhereClause.Spec) :
    Makes embed (Node.readBetween operator (operands.map embed))
      (Condition.readBetween operator operands) := by
  match operands with
  | [column, low, high] =>
    show Makes embed ((embed column).toColumn operator >>= fun column =>
      (embed low).toScalar operator >>= fun low =>
        (embed high).toScalar operator >>= fun high =>
          Node.ofBetween column operator low high) _
    rw [toColumn_embed, toScalar_embed, toScalar_embed]
    apply Makes.bind
    intro column
    apply Makes.bind
    intro x
    apply Makes.bind
    intro y
    rw [← Operand.map_scalar, ← Operand.map_scalar]
    exact makes_ofBetween embed column operator (.scalar x) (.scalar y)
  | [] => exact arity operator _ []
  | [s] => exact arity operator _ [s]
  | [s, t] => exact arity operator _ [s, t]
  | s :: t :: u :: v :: ss => exact arity operator _ (s :: t :: u :: v :: ss)

theorem readBetweenColumns (operator : String) (operands : List WhereClause.Spec) :
    Makes embed (Node.readBetweenColumns operator (operands.map embed))
      (Condition.readBetweenColumns operator operands) := by
  match operands with
  | [value, low, high] =>
    show Makes embed ((embed value).toScalar operator >>= fun value =>
      (embed low).toColumn operator >>= fun low =>
        (embed high).toColumn operator >>= fun high =>
          Node.ofBetweenColumns value operator low high) _
    rw [toScalar_embed, toColumn_embed, toColumn_embed]
    apply Makes.bind
    intro x
    apply Makes.bind
    intro low
    apply Makes.bind
    intro high
    rw [← Operand.map_scalar]
    exact makes_ofBetweenColumns embed (.scalar x) operator low high
  | [] => exact arity operator _ []
  | [s] => exact arity operator _ [s]
  | [s, t] => exact arity operator _ [s, t]
  | s :: t :: u :: v :: ss => exact arity operator _ (s :: t :: u :: v :: ss)

/-- The checks of the members are those that made patterns of them. -/
theorem readPatternWith (operator : String) (column values escaping : WhereClause.Spec) :
    Makes embed (Node.readPatternWith operator (embed column) (embed values) (embed escaping))
      (Condition.readPatternWith operator column values escaping) := by
  rw [Node.readPatternWith, toColumn_embed, toOperand_embed, toEscaping_embed]
  apply Makes.bind
  intro column
  apply Makes.bind
  intro values
  apply Makes.bind_same
  intro escaping _
  exact makes_ofPatterns embed column operator values escaping

theorem readPattern (operator : String) (operands : List WhereClause.Spec) :
    Makes embed (Node.readPattern operator (operands.map embed))
      (Condition.readPattern operator operands) := by
  match operands with
  | [column, values] =>
    -- Two operands are read as three with a null for the escaping.
    have hwith := readPatternWith operator column values .null
    rw [WhereClause.Spec.null, Spec.embed_scalar] at hwith
    exact hwith
  | [column, values, escaping] => exact readPatternWith operator column values escaping
  | [] => exact arity operator _ []
  | [s] => exact arity operator _ [s]
  | s :: t :: u :: v :: ss => exact arity operator _ (s :: t :: u :: v :: ss)

/-- A negation is not looked into. -/
theorem readNegation (operator : String) (operands : List WhereClause.Spec) :
    Makes embed (Node.readNegation operator (operands.map embed))
      (Condition.readNegation operator operands) := by
  match operands with
  | [inner] => exact .ok rfl
  | [] => exact arity operator _ []
  | s :: t :: ss => exact arity operator _ (s :: t :: ss)

/-- A sub-query is embedded by what stands in it. -/
theorem readExistence (operator : String) (operands : List WhereClause.Spec) :
    Makes embed (Node.readExistence operator (operands.map embed))
      (Condition.readExistence operator operands) := by
  match operands with
  | [s] =>
    have hshape := Spec.shape_embed s
    cases s with
    | scalar x =>
      rw [List.map_singleton, Spec.embed_scalar]
      cases x with
      | subquery q => exact makes_ofExistence embed operator q
      | null | value | raw => exact .error _
    | list items =>
      rw [List.map_singleton, Spec.embed_list]
      exact .error _
    | map entries =>
      rw [List.map_singleton, Spec.embed_map]
      exact .error _
    | condition x =>
      rw [Spec.embed_condition] at hshape
      rw [List.map_singleton, Spec.embed_condition, Node.readExistence, hshape]
      · exact .error _
      · simp
  | [] => exact arity operator _ []
  | s :: t :: ss =>
    -- The readers match on one operand, and unfold to the error only on two given ones.
    have harity := arity operator (.exactly 1) (s :: t :: ss)
    rw [List.map_cons, List.map_cons] at harity ⊢
    rwa [Node.readExistence, Condition.readExistence]
    all_goals simp

/-- **A reader of the library makes of copies what its form makes of the originals.** -/
theorem form (b : Builtin) (operator : String) (operands : List WhereClause.Spec) :
    Makes embed (reader b operator (operands.map embed)) (b.form.read operator operands) := by
  cases b with
  | comparison => exact readComparison operator operands
  | membership => exact readMembership operator operands
  | between => exact readBetween operator operands
  | betweenColumns => exact readBetweenColumns operator operands
  | pattern => exact readPattern operator operands
  | negation => exact readNegation operator operands
  | junction => exact makes_ofJunction embed operator operands
  | existence => exact readExistence operator operands

/-- So it is for mappings. -/
theorem ofMap (entries : List (String × WhereClause.Spec)) :
    Makes embed (Node.ofMap (entries.map fun e => (e.1, embed e.2)))
      (Condition.ofMap entries) := by
  -- All entries are read before any is checked, so the two runs are compared one after the
  -- other.
  have hread : (entries.map fun e => (e.1, embed e.2)).mapM
        (fun e => do return (e.1, ← e.2.toOperand e.1) :
          String × Spec → Except Error (String × Operand Spec)) =
      (entries.mapM (fun e => do return (e.1, ← Operand.ofSpec e.1 e.2) :
        String × WhereClause.Spec → Except Error (String × Operand WhereClause.Spec))).map
        (List.map fun e => (e.1, e.2.map embed)) := by
    rw [List.mapM_map]
    induction entries with
    | nil => rfl
    | cons e es ih =>
      rw [List.mapM_cons, List.mapM_cons, ih]
      simp only [Function.comp_def, toOperand_embed]
      cases Operand.ofSpec e.1 e.2 with
      | error err => rfl
      | ok o =>
        cases es.mapM (fun e => do return (e.1, ← Operand.ofSpec e.1 e.2) :
          String × WhereClause.Spec → Except Error (String × Operand WhereClause.Spec)) <;> rfl
  rw [Node.ofMap, hread]
  apply Makes.bind
  intro operands
  exact makes_ofEntries embed operands

end Makes

/-! ### One level -/

/-- The readers of some forms of the library, under any tokens. -/
def Registry.ofBuiltins (table : List (String × Builtin)) : Registry :=
  ⟨table.map fun e => (e.1, reader e.2)⟩

/-- The open registry of the library is given by the same table. -/
theorem Registry.standard_eq_ofBuiltins :
    Registry.standard = ofBuiltins WhereClause.Registry.standardTable := rfl

/-- **Dispatch** finds the reader of a form where it found the form. -/
theorem Registry.makes_parse (table : List (String × Builtin)) (token : String)
    (operands : List WhereClause.Spec) :
    Makes Spec.embed ((ofBuiltins table).parse token (operands.map Spec.embed))
      ((WhereClause.Registry.ofBuiltins table).parse token operands) := by
  have hlookup (operator : String) : (ofBuiltins table).forms.lookup operator =
      (table.lookup operator).map reader := Keyed.lookup_map _ _ _
  rw [WhereClause.Registry.parse_eq, WhereClause.Registry.builtin?]
  simp only [parse, hlookup]
  cases table.lookup (Operator.normalize token) with
  | some b => exact Makes.form b _ operands
  | none =>
    cases isComparison (Operator.normalize token) with
    | true => exact Makes.form .comparison _ operands
    | false => exact .error _

namespace Compiler

/-- A compiler with forms of the library under any tokens. -/
def ofBuiltins (d : Dialect) (table : List (String × Builtin)) : Compiler :=
  ⟨d, .ofBuiltins table⟩

/-- What is made of copies is written as what is made of the originals. -/
theorem write_of_makes {c : Compiler} {k : Spec → Render String} {x : Except Error (Node Spec)}
    {y : Except Error (Condition WhereClause.Spec)} (h : Makes Spec.embed x y) :
    c.write k x = ((Reading.ofExcept y).map fun t => k (Spec.embed t)).render c.dialect := by
  cases h with
  | error e => rfl
  | @ok n y h =>
    have hsettle : (n.map k).settle = .ok (y.map fun t => k (Spec.embed t)) := by
      rw [Node.settle_map h, Condition.map_map]
    exact Node.render_of_settle hsettle

/-- **One call on a copy** writes what is read from the original, over what the next calls
make of the copies that stand in it. -/
theorem step_embed (d : Dialect) (table : List (String × Builtin)) (k : Spec → Render String)
    (s : WhereClause.Spec) :
    (ofBuiltins d table).step k (Spec.embed s) =
      ((s.read (.ofBuiltins table)).map fun t => k (Spec.embed t)).render d := by
  -- Both sides look at the outermost constructor, and at a list's first item, in the same
  -- order.
  cases s with
  | scalar x =>
    rw [Spec.embed_scalar]
    cases x with
    | value v =>
      cases v with
      | text t =>
        rw [WhereClause.Spec.read]
        show (if t.isEmpty then _ else _) = _
        split <;> rfl
      | _ => rfl
    | null | raw | subquery => rfl
  | list items =>
    rw [Spec.embed_list]
    cases items with
    | nil => rfl
    | cons first operands =>
      have hshape := Spec.shape_embed first
      rw [List.map_cons]
      -- Only a text in front is a token; anything else is refused with the same error.
      cases first with
      | scalar x =>
        rw [Spec.embed_scalar] at hshape ⊢
        cases x with
        | value v =>
          cases v with
          | text token => exact write_of_makes (Registry.makes_parse table token operands)
          | _ => rfl
        | null | raw | subquery => rfl
      | list items =>
        rw [Spec.embed_list]
        rfl
      | map entries =>
        rw [Spec.embed_map]
        rfl
      | condition x =>
        rw [Spec.embed_condition] at hshape ⊢
        rw [step, hshape]
        · rfl
        · simp
  | map entries =>
    rw [Spec.embed_map]
    cases entries with
    | nil => rfl
    | cons e es => exact write_of_makes (Makes.ofMap (e :: es))
  | condition x =>
    rw [Spec.embed_condition]
    exact write_of_makes (.ok (Node.settle_ofCondition _))

end Compiler

/-! ### All levels -/

/-- **A copy is compiled as the original**, in as many calls as the original has levels. -/
theorem Spec.compileWithin_embed (d : Dialect) (table : List (String × Builtin))
    (overflow : Spec → Render String) {n : Nat} {s : WhereClause.Spec} (h : s.depth ≤ n) :
    (embed s).compileWithin (.ofBuiltins d table) overflow n =
      s.compile ⟨d, .ofBuiltins table⟩ := by
  induction n generalizing s with
  | zero =>
    -- There is no specification of depth zero, so fuel cannot have run out.
    have hpos := s.depth_pos
    omega
  | succ n ih =>
    -- What is read lies one level deeper, where one call less is enough.
    have hnext : (s.read (.ofBuiltins table)).map
          (fun t => (embed t).compileWithin (.ofBuiltins d table) overflow n) =
        (s.read (.ofBuiltins table)).map (WhereClause.Spec.compile ⟨d, .ofBuiltins table⟩) := by
      apply Reading.map_congr
      intro t ht
      have hlt := WhereClause.Spec.depth_lt_of_mem_read ht
      exact ih (by omega)
    rw [compileWithin, Compiler.step_embed, hnext]
    exact (WhereClause.Spec.compile_eq ⟨d, .ofBuiltins table⟩ s).symm

/-- **Compiling a copy comes to an end**, in what compiling the original does. -/
theorem Compiler.endsIn_embed (d : Dialect) (table : List (String × Builtin))
    (s : WhereClause.Spec) (sink : Sink) :
    (Compiler.ofBuiltins d table).EndsIn (Spec.embed s) sink
      (WhereClause.Compiler.compileInto ⟨d, .ofBuiltins table⟩ s sink) := by
  refine ⟨s.depth, fun overflow => ?_⟩
  rw [Spec.compileWithin_embed d table overflow (Nat.le_refl s.depth)]
  rfl

end WhereClause.Open
