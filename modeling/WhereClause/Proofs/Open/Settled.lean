/-
WhereClause/Proofs/Open/Settled.lean

Nodes that pass their checks.  Looking at the operands of a node once more, as is done while
it is written, either fails or settles what each of them is (`Node.settle`).  Then the node
is written as the condition that it settles to (`Node.render_of_settle`), so none of the
branches in which writing refuses an operand is ever taken.

What is checked as a node is made is enough for that.  A node and a condition that are made
of the same operands are both refused, for the same reason, or the node settles to the
condition (`Makes`); so it is for each way to make them (`makes_ofComparison` and its like).
-/
import WhereClause.Open.Node
import WhereClause.Proofs.Spelling

namespace WhereClause.Open

variable {S T α β γ : Type}

/-! ### Settling -/

/-- The condition that a node is, if each operand is what its place asks for. -/
def Node.settle : Node S → Except Error (Condition S)
  | .hash entries => Condition.ofTests entries
  | .comparison column operator value => do
    let comparison ← Operator.known operator (ComparisonOperator.ofToken? operator)
    return .comparison column comparison (← value.toScalar operator)
  | .membership columns polarity values =>
    .ok (.membership columns polarity (.ofOperand values))
  | .between column polarity low high => do
    let low ← low.toScalar (polarity.apply "BETWEEN")
    let high ← high.toScalar (polarity.apply "BETWEEN")
    return .between column polarity low high
  | .betweenColumns value polarity low high => do
    return .betweenColumns (← value.toScalar (polarity.apply "BETWEEN")) polarity low high
  | .pattern column operator values escaping => do
    return .pattern column operator
      (← values.members.mapM (Pattern.ofOperand operator.core)) escaping
  | .negation inner => .ok (.negation inner)
  | .junction operator operands => .ok (.junction operator operands)
  | .existence polarity q => .ok (.existence polarity q)

/-! ### Writing what is settled -/

/-- An operator that was parsed is written as its token. -/
theorem ofToken?_eq_some {token : String} {operator : ComparisonOperator}
    (h : ComparisonOperator.ofToken? token = some operator) : operator.text = token := by
  rw [ComparisonOperator.ofToken?] at h
  split at h
  · cases h
    rfl
  · cases h

/-- An entry is written as the test that it is. -/
theorem renderEntry_operand (d : Dialect) (column : String) (test : HashTest (Render String)) :
    renderEntry d column test.operand = test.render d column := by
  cases test with
  | list items => rfl
  | scalar s => cases s <;> rfl

/-- A pattern is written as what it is. -/
theorem renderPattern_of_ofOperand {d : Dialect} {operator operator' : String}
    {table : Option (List (Char × String))} {o : Operand (Render String)}
    {p : Pattern (Render String)} (h : Pattern.ofOperand operator o = .ok p) :
    renderPattern d operator' table o = p.render d table := by
  -- Writing looks at an operand as making a pattern did, and has its error only where that
  -- failed.
  unfold Pattern.ofOperand at h
  split at h
  · next v =>
    split at h
    · next s hs =>
      cases h
      rw [renderPattern, hs]
      rfl
    · cases h
  · cases h
    rfl
  · cases h
    rfl
  · cases h

/-- Members that were made into patterns are written as those. -/
theorem renderPatterns_of_mapM {d : Dialect} {column : Column (Render String)}
    {operator : LikeOperator} {escaping : Escaping} {token : String}
    {members : List (Operand (Render String))} {patterns : List (Pattern (Render String))}
    (h : members.mapM (Pattern.ofOperand token) = .ok patterns) :
    renderPatterns d column operator escaping members =
      Pattern.renderAll d column operator escaping patterns := by
  let table := d.options.escapeTable escaping
  have hmap : patterns.map (Pattern.render d table) =
      members.map (renderPattern d operator.core table) :=
    Attempt.map_eq_of_mapM (fun _ _ hp => (renderPattern_of_ofOperand hp).symm) h
  have hrun : patterns.mapM (Pattern.render d table) =
      members.mapM (renderPattern d operator.core table) := by
    -- Equal lists of steps are equal runs; `mapM` over a map has no congruence of its own.
    have hid := congrArg (List.mapM id) hmap
    rwa [List.mapM_map, List.mapM_map] at hid
  have hlength := congrArg List.length hmap
  rw [List.length_map, List.length_map] at hlength
  -- No members are written as no patterns, which both functions single out.
  cases members with
  | nil =>
    obtain rfl := List.length_eq_zero_iff.1 hlength
    rfl
  | cons o os =>
    obtain ⟨p, ps, rfl⟩ := List.exists_cons_of_length_eq_add_one hlength
    rw [renderPatterns, Pattern.renderAll, hrun]
    · exact List.cons_ne_nil p ps
    · exact List.cons_ne_nil o os

/-- **A node is written as the condition that it settles to.** -/
theorem Node.render_of_settle {d : Dialect} {n : Node (Render String)}
    {x : Condition (Render String)} (h : n.settle = .ok x) : n.render d = x.render d := by
  -- What settling took apart, writing takes apart again, so its own refusals are passed by.
  cases n with
  | hash entries =>
    obtain ⟨tests, rfl, rfl⟩ := Condition.ofTests_eq_ok.1 h
    rw [render, Condition.render, List.mapM_map]
    simp only [Function.comp_def, renderEntry_operand]
  | comparison column operator value =>
    obtain ⟨comparison, hcomparison, h⟩ := Attempt.bind_eq_ok.1 h
    obtain ⟨s, hs, h⟩ := Attempt.bind_eq_ok.1 h
    cases h
    obtain rfl := Operand.toScalar_eq_ok.1 hs
    obtain rfl := ofToken?_eq_some (Operator.known_eq_ok.1 hcomparison)
    rfl
  | membership columns polarity values =>
    cases h
    rfl
  | between column polarity low high =>
    obtain ⟨s, hs, h⟩ := Attempt.bind_eq_ok.1 h
    obtain ⟨t, ht, h⟩ := Attempt.bind_eq_ok.1 h
    cases h
    obtain rfl := Operand.toScalar_eq_ok.1 hs
    obtain rfl := Operand.toScalar_eq_ok.1 ht
    rfl
  | betweenColumns value polarity low high =>
    obtain ⟨s, hs, h⟩ := Attempt.bind_eq_ok.1 h
    cases h
    obtain rfl := Operand.toScalar_eq_ok.1 hs
    rfl
  | pattern column operator values escaping =>
    obtain ⟨patterns, hpatterns, h⟩ := Attempt.bind_eq_ok.1 h
    cases h
    exact renderPatterns_of_mapM hpatterns
  | negation inner =>
    cases h
    rfl
  | junction operator operands =>
    cases h
    rfl
  | existence polarity q =>
    cases h
    rfl

/-! ### Replacing what stands in a node -/

/-- To replace in each member is to replace in the operand. -/
theorem members_map (f : S → T) (o : Operand S) :
    (o.map f).members = o.members.map (Operand.map f) := by
  cases o with
  | scalar s =>
    rw [Operand.map_scalar]
    show [_] = [(Operand.scalar s).map f]
    rw [Operand.map_scalar]
  | list items =>
    rw [Operand.map_list]
    rfl
  | row entries =>
    rw [Operand.map_row]
    show [_] = [(Operand.row entries).map f]
    rw [Operand.map_row]

/-- To take candidates and to replace what stands in them commute. -/
theorem ofOperand_map (f : S → T) (o : Operand S) :
    Candidates.ofOperand (o.map f) = (Candidates.ofOperand o).map f := by
  have hmembers : Candidates.members (o.map f).members = (Candidates.members o.members).map f := by
    rw [members_map, Candidates.map_members]
  cases o with
  | scalar s =>
    rw [Operand.map_scalar] at hmembers ⊢
    cases s with
    | subquery q => rfl
    | null | value | raw => exact hmembers
  | list items =>
    rw [Operand.map_list] at hmembers ⊢
    exact hmembers
  | row entries =>
    rw [Operand.map_row] at hmembers ⊢
    exact hmembers

/-- A test is made of the operand with the same things replaced. -/
theorem map_operand (f : S → T) (test : HashTest S) :
    test.operand.map f = (test.map f).operand := by
  cases test with
  | scalar s => exact Operand.map_scalar f s
  | list items =>
    rw [HashTest.operand, Operand.map_list, HashTest.map_list]
    rfl

/-- What is a pattern is the same pattern with other things in it, under any operator. -/
theorem ofOperand_map_eq_ok {operator operator' : String} {f : S → T} {o : Operand S}
    {p : Pattern S} (h : Pattern.ofOperand operator o = .ok p) :
    Pattern.ofOperand operator' (o.map f) = .ok (p.map f) := by
  unfold Pattern.ofOperand at h
  split at h
  · next v =>
    split at h
    · next s hs =>
      cases h
      rw [Operand.map_scalar]
      rw [Scalar.map, Scalar.pmap, Pattern.ofOperand, hs]
      rfl
    · cases h
  · cases h
    rw [Operand.map_scalar]
    rfl
  · cases h
    rw [Operand.map_scalar]
    rfl
  · cases h

/-- Whether members are patterns does not depend on what stands in them; nor does the operator
matter, which is only named in the error. -/
theorem mapM_ofOperand_map {operator operator' : String} {f : S → T} {os : List (Operand S)}
    {ps : List (Pattern S)} (h : os.mapM (Pattern.ofOperand operator) = .ok ps) :
    (os.map (Operand.map f)).mapM (Pattern.ofOperand operator') = .ok (ps.map (Pattern.map f)) := by
  induction os generalizing ps with
  | nil =>
    cases h
    rfl
  | cons o os ih =>
    rw [List.mapM_cons] at h
    obtain ⟨p, hp, h⟩ := Attempt.bind_eq_ok.1 h
    obtain ⟨ps', hps, h⟩ := Attempt.bind_eq_ok.1 h
    cases h
    rw [List.map_cons, List.mapM_cons]
    exact Attempt.bind_eq_ok.2 ⟨_, ofOperand_map_eq_ok hp,
      Attempt.bind_eq_ok.2 ⟨_, ih hps, rfl⟩⟩

/-- A node settles whatever stands in it. -/
theorem Node.settle_map {f : S → T} {n : Node S} {x : Condition S} (h : n.settle = .ok x) :
    (n.map f).settle = .ok (x.map f) := by
  -- Settling looks at the operands and not at what stands in their sub-queries.
  cases n with
  | hash entries =>
    obtain ⟨tests, rfl, rfl⟩ := Condition.ofTests_eq_ok.1 h
    rw [Condition.map_hash]
    refine Condition.ofTests_eq_ok.2 ⟨_, ?_, rfl⟩
    rw [List.map_map, List.map_map]
    exact List.map_congr_left fun e _ => congrArg (e.1, ·) (map_operand f e.2)
  | comparison column operator value =>
    obtain ⟨comparison, hcomparison, h⟩ := Attempt.bind_eq_ok.1 h
    obtain ⟨s, hs, h⟩ := Attempt.bind_eq_ok.1 h
    cases h
    obtain rfl := Operand.toScalar_eq_ok.1 hs
    rw [map, Operand.map_scalar, Condition.map_comparison]
    exact Attempt.bind_eq_ok.2 ⟨comparison, hcomparison, rfl⟩
  | membership columns polarity values =>
    cases h
    rw [map, settle, ofOperand_map, Condition.map_membership]
  | between column polarity low high =>
    obtain ⟨s, hs, h⟩ := Attempt.bind_eq_ok.1 h
    obtain ⟨t, ht, h⟩ := Attempt.bind_eq_ok.1 h
    cases h
    obtain rfl := Operand.toScalar_eq_ok.1 hs
    obtain rfl := Operand.toScalar_eq_ok.1 ht
    rw [map, Operand.map_scalar, Operand.map_scalar]
    rfl
  | betweenColumns value polarity low high =>
    obtain ⟨s, hs, h⟩ := Attempt.bind_eq_ok.1 h
    cases h
    obtain rfl := Operand.toScalar_eq_ok.1 hs
    rw [map, Operand.map_scalar]
    rfl
  | pattern column operator values escaping =>
    obtain ⟨patterns, hpatterns, h⟩ := Attempt.bind_eq_ok.1 h
    cases h
    rw [map, settle, members_map, mapM_ofOperand_map hpatterns, Condition.map_pattern]
    rfl
  | negation inner =>
    cases h
    rfl
  | junction operator operands =>
    cases h
    rw [Condition.map_junction]
    rfl
  | existence polarity q =>
    cases h
    rfl

/-! ### Making nodes -/

/-- A node and a condition, made of the same operands but for what `f` replaces: both are
refused for the same reason, or the node settles to the condition. -/
inductive Makes (f : S → T) : Except Error (Node T) → Except Error (Condition S) → Prop
  | error (e : Error) : Makes f (.error e) (.error e)
  | ok {n : Node T} {x : Condition S} (h : n.settle = .ok (x.map f)) : Makes f (.ok n) (.ok x)

/-- The same step before both. -/
theorem Makes.bind {f : S → T} {x : Except Error α} {g : α → β} {y' : β → Except Error (Node T)}
    {y : α → Except Error (Condition S)} (h : ∀ a, Makes f (y' (g a)) (y a)) :
    Makes f (x.map g >>= y') (x >>= y) := by
  cases x with
  | error e => exact .error e
  | ok a => exact h a

/-- Both sides begin with one attempt, which knows nothing of what stands in the operands. -/
theorem Makes.bind_same {f : S → T} {x : Except Error α} {y' : α → Except Error (Node T)}
    {y : α → Except Error (Condition S)} (h : ∀ a, x = .ok a → Makes f (y' a) (y a)) :
    Makes f (x >>= y') (x >>= y) := by
  cases x with
  | error e => exact .error e
  | ok a => exact h a rfl

/-- A check, where the condition takes what it asks for. -/
theorem Makes.check {f : S → T} {check : Except Error Unit} {x : Except Error α}
    {y' : Except Error (Node T)} {y : α → Except Error (Condition S)}
    (hcheck : check = x.map fun _ => ()) (h : ∀ a, x = .ok a → Makes f y' (y a)) :
    Makes f (check >>= fun _ => y') (x >>= y) := by
  rw [hcheck]
  cases x with
  | error e => exact .error e
  | ok a => exact h a rfl

/-- A scalar slot is checked to hold the scalar that is taken out of it. -/
theorem checkScalar_map (f : S → T) (operator : String) (o : Operand S) :
    checkScalar operator (o.map f) = (o.toScalar operator).map fun _ => () := by
  have hshape := Operand.shape_map f o
  cases o with
  | scalar s =>
    rw [Operand.map_scalar]
    rfl
  | list items =>
    rw [Operand.map_list]
    rfl
  | row entries =>
    rw [Operand.map_row]
    rfl

/-- The check of a pattern is the reading of it, with what is read thrown away. -/
theorem checkPattern_map (f : S → T) (operator : String) (o : Operand S) :
    checkPattern operator (o.map f) = (Pattern.ofOperand operator o).map fun _ => () := by
  cases o with
  | scalar s =>
    rw [Operand.map_scalar]
    cases s with
    | value v =>
      show checkPattern operator (Operand.scalar (.value v)) = _
      rw [checkPattern, Pattern.ofOperand]
      -- The check and the reading agree on which values have a text.
      cases v.patternText? with
      | some s => rfl
      | none => rfl
    | null | raw | subquery => rfl
  | list items =>
    rw [Operand.map_list]
    rfl
  | row entries =>
    rw [Operand.map_row]
    rfl

/-- The check of an entry is the reading of it, with what is read thrown away. -/
theorem checkEntry_map (f : S → T) (column : String) (o : Operand S) :
    checkEntry column (o.map f) = (HashTest.ofOperand column o).map fun _ => () := by
  cases o with
  | scalar s =>
    rw [Operand.map_scalar]
    rfl
  | list items =>
    rw [Operand.map_list]
    rfl
  | row entries =>
    rw [Operand.map_row]
    rfl

/-- Checks of a list, where each takes what it asks for. -/
theorem forM_eq_map_mapM {check : β → Except Error Unit} {take : α → Except Error γ} {g : α → β}
    (h : ∀ a, check (g a) = (take a).map fun _ => ()) (as : List α) :
    (as.map g).forM check = (as.mapM take).map fun _ => () := by
  induction as with
  | nil => rfl
  | cons a as ih =>
    show (check (g a) >>= fun _ => (as.map g).forM check) = _
    rw [List.mapM_cons, h, ih]
    cases take a with
    | error e => rfl
    | ok b => cases as.mapM take <;> rfl

/-- **A comparison** holds a scalar. -/
theorem makes_ofComparison (f : S → T) (column : Column S) (token : String) (value : Operand S) :
    Makes f (Node.ofComparison (column.map f) token (value.map f))
      (Condition.ofComparison column token value) := by
  rw [Node.ofComparison, Condition.ofComparison, ComparisonOperator.ofToken?]
  -- Whether the token is safe is asked for before the value is looked at.
  by_cases hcomparison : isComparison (Operator.normalize token) = true
  · rw [if_pos hcomparison, dif_pos hcomparison]
    apply Makes.check (checkScalar_map f _ value)
    intro s hs
    obtain rfl := Operand.toScalar_eq_ok.1 hs
    rw [Operand.map_scalar]
    have hknown : ComparisonOperator.ofToken? (Operator.normalize token) =
        some ⟨Operator.normalize token, hcomparison⟩ := dif_pos hcomparison
    exact .ok (Attempt.bind_eq_ok.2 ⟨_, Operator.known_eq_ok.2 hknown, rfl⟩)
  · rw [if_neg hcomparison, dif_neg hcomparison]
    exact .error _

/-- A membership test holds its values as they are; they are looked at one by one. -/
theorem makes_ofMembership (f : S → T) (columns : List (Column S)) (token : String)
    (values : Operand S) :
    Makes f (Node.ofMembership (columns.map (Column.map f)) token (values.map f))
      (Condition.ofMembership columns token values) := by
  apply Makes.bind_same
  intro polarity _
  have hcolumns : (columns.map (Column.map f)).mapM
        (PlainColumn.ofColumn (Operator.normalize token)) =
      columns.mapM (PlainColumn.ofColumn (Operator.normalize token)) := by
    rw [List.mapM_map]
    -- Only names and raw columns are plain, and nothing stands in those that could be replaced.
    congr 1
    funext c
    cases c <;> rfl
  rw [hcolumns]
  apply Makes.bind_same
  intro plain _
  apply Makes.ok
  rw [Node.settle, ofOperand_map]
  rfl

/-- **The bounds of a range** are scalars. -/
theorem makes_ofBetween (f : S → T) (column : Column S) (token : String) (low high : Operand S) :
    Makes f (Node.ofBetween (column.map f) token (low.map f) (high.map f))
      (Condition.ofBetween column token low high) := by
  apply Makes.bind_same
  intro polarity _
  apply Makes.check (checkScalar_map f _ low)
  intro s hs
  apply Makes.check (checkScalar_map f _ high)
  intro t ht
  obtain rfl := Operand.toScalar_eq_ok.1 hs
  obtain rfl := Operand.toScalar_eq_ok.1 ht
  rw [Operand.map_scalar, Operand.map_scalar]
  exact .ok rfl

/-- **The value between two columns** is a scalar. -/
theorem makes_ofBetweenColumns (f : S → T) (value : Operand S) (token : String)
    (low high : Column S) :
    Makes f (Node.ofBetweenColumns (value.map f) token (low.map f) (high.map f))
      (Condition.ofBetweenColumns value token low high) := by
  apply Makes.bind_same
  intro polarity _
  apply Makes.check (checkScalar_map f _ value)
  intro s hs
  obtain rfl := Operand.toScalar_eq_ok.1 hs
  rw [Operand.map_scalar]
  exact .ok rfl

/-- **The values of a pattern test** are patterns, also under the operator by which they are
looked at again. -/
theorem makes_ofPatterns (f : S → T) (column : Column S) (token : String) (values : Operand S)
    (escaping : Escaping) :
    Makes f (Node.ofPatterns (column.map f) token (values.map f) escaping)
      (Condition.ofPatterns column token values escaping) := by
  apply Makes.bind_same
  intro like _
  rw [members_map]
  apply Makes.check (forM_eq_map_mapM (checkPattern_map f token) _)
  intro patterns hpatterns
  apply Makes.ok
  rw [Node.settle, members_map, mapM_ofOperand_map hpatterns, Condition.map_pattern]
  rfl

/-- **The entries of a hash** are tests. -/
theorem makes_ofEntries (f : S → T) (entries : List (String × Operand S)) :
    Makes f (Node.ofEntries (entries.map fun e => (e.1, e.2.map f)))
      (Condition.ofTests entries) := by
  have htake (e : String × Operand S) : checkEntry e.1 (e.2.map f) =
      (do return (e.1, ← HashTest.ofOperand e.1 e.2) : Except Error (String × HashTest S)).map
        fun _ => () := by
    rw [checkEntry_map]
    cases HashTest.ofOperand e.1 e.2 <;> rfl
  apply Makes.check (forM_eq_map_mapM htake entries)
  intro tests htests
  have hmade : Condition.ofTests entries = .ok (.hash tests) :=
    Attempt.bind_eq_ok.2 ⟨tests, htests, rfl⟩
  exact .ok (Node.settle_map (n := .hash entries) hmade)

/-- A junction is made by its operator alone, and nothing is checked again. -/
theorem makes_ofJunction (f : S → T) (token : String) (operands : List S) :
    Makes f (Node.ofJunction token (operands.map f)) (Condition.ofJunction token operands) := by
  apply Makes.bind_same
  intro junction _
  apply Makes.ok
  rw [Node.settle, Condition.map_junction]

/-- An existence test is made by its operator alone. -/
theorem makes_ofExistence (f : S → T) (token : String) (q : Subquery S) :
    Makes f (Node.ofExistence token (q.map f)) (Condition.ofExistence token q) := by
  apply Makes.bind_same
  intro polarity _
  exact .ok rfl

end WhereClause.Open
