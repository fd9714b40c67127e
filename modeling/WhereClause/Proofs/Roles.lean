/-
WhereClause/Proofs/Roles.lean

What the operands of an operator are for.  The same specification is a column in
one place, a value in another and a condition in a third; which it is depends on
the form of the operator and on the place alone.

Main results: if two specifications differ only in values, that is in places
where a value is bound and not looked at, then so does what is read from them
(`Spec.Agree.read`).
-/
import WhereClause.Proofs.Render.Congruence

namespace WhereClause

/-! ### Forms and their places -/

/-- The forms of the library itself. -/
inductive Builtin where
  | comparison
  | membership
  | between
  | betweenColumns
  | pattern
  | negation
  | junction
  | existence
  deriving DecidableEq

/-- What an operand is for. -/
inductive Role where
  /-- A condition of its own. -/
  | condition
  /-- A value, or values, to be bound. -/
  | value
  /-- Something that is written into the text, or that says how to. -/
  | fixed

namespace Builtin

/-- The form that a name of the library stands for. -/
def form : Builtin → OperatorForm
  | .comparison => .comparison
  | .membership => .membership
  | .between => .between
  | .betweenColumns => .betweenColumns
  | .pattern => .pattern
  | .negation => .negation
  | .junction => .junction
  | .existence => .existence

/-- What the operand at a place is for; the operator itself is not counted. -/
def role : Builtin → Nat → Role
  | .comparison, 1 | .membership, 1 | .pattern, 1 => .value
  | .between, 1 | .between, 2 | .betweenColumns, 0 => .value
  | .negation, _ | .junction, _ => .condition
  | _, _ => .fixed

end Builtin

namespace Registry

/-- The registry of some tokens with forms of the library. -/
def ofBuiltins (table : List (String × Builtin)) : Registry :=
  ⟨table.map fun e => (e.1, e.2.form)⟩

/-- The tokens of the standard registry. -/
def standardTable : List (String × Builtin) :=
  [("AND", .junction), ("OR", .junction), ("NOT", .negation),
   ("IN", .membership), ("NOT IN", .membership),
   ("BETWEEN", .between), ("NOT BETWEEN", .between),
   ("LIKE", .pattern), ("NOT LIKE", .pattern),
   ("OR LIKE", .pattern), ("OR NOT LIKE", .pattern),
   ("ILIKE", .pattern), ("NOT ILIKE", .pattern),
   ("OR ILIKE", .pattern), ("OR NOT ILIKE", .pattern),
   ("EXISTS", .existence), ("NOT EXISTS", .existence)]

/-- The registry of the library is given by a table of names, so what holds for all tables holds
for it. -/
theorem standard_eq_ofBuiltins : standard = ofBuiltins standardTable := rfl

/-- To register a form of the library leads to no other registries. -/
theorem register_ofBuiltins (token : String) (b : Builtin) (table : List (String × Builtin)) :
    (ofBuiltins table).register token b.form =
      ofBuiltins (Keyed.put (Operator.normalize token) b table) := by
  rw [register, ofBuiltins, ofBuiltins]
  congr 1
  induction table with
  | nil => rfl
  | cons e es ih =>
    rw [List.map_cons, Keyed.put, Keyed.put]
    split
    · rfl
    · rw [List.map_cons, ih]

/-- The form that a token has in a table, or that of comparisons. -/
def builtin (table : List (String × Builtin)) (token : String) : Builtin :=
  (table.lookup (Operator.normalize token)).getD .comparison

/-- The form by which the operands of a normalized token are read, if there is one. -/
def builtin? (table : List (String × Builtin)) (operator : String) : Option Builtin :=
  match table.lookup operator with
  | some b => some b
  | none => if isComparison operator then some .comparison else none

/-- What is in the table is read as it says, and what is not is a comparison or unknown. -/
theorem parse_eq (table : List (String × Builtin)) (token : String) (operands : List Spec) :
    (ofBuiltins table).parse token operands =
      match builtin? table (Operator.normalize token) with
      | some b => b.form.read (Operator.normalize token) operands
      | none => .error (.unknownOperator (Operator.normalize token)) := by
  -- A form is found under a token just when it is found in the table.
  have hlookup (operator : String) : (ofBuiltins table).forms.lookup operator =
      (table.lookup operator).map Builtin.form := Keyed.lookup_map _ _ _
  simp only [parse, parseBy, builtin?, hlookup]
  cases table.lookup (Operator.normalize token) with
  | some b => rfl
  | none => cases isComparison (Operator.normalize token) <;> rfl

/-- Roles are looked up as forms are, with the comparison for what is not in the table. -/
theorem builtin_eq (table : List (String × Builtin)) (token : String) :
    builtin table token = (builtin? table (Operator.normalize token)).getD .comparison := by
  rw [builtin, builtin?]
  cases table.lookup (Operator.normalize token) with
  | some b => rfl
  | none => cases isComparison (Operator.normalize token) <;> rfl

/-- A token has one form, which reads all operands, or none, and then the error does not depend
on them. -/
theorem parse_ofBuiltins (table : List (String × Builtin)) (token : String) :
    (∀ operands, (ofBuiltins table).parse token operands =
      (builtin table token).form.read (Operator.normalize token) operands) ∨
    ∃ e, ∀ operands, (ofBuiltins table).parse token operands = .error e := by
  cases hb : builtin? table (Operator.normalize token) with
  | some b =>
    left
    have hbuiltin : builtin table token = b := by
      rw [builtin_eq, hb]
      rfl
    intro operands
    rw [parse_eq, hb, hbuiltin]
  | none =>
    right
    refine ⟨.unknownOperator (Operator.normalize token), fun operands => ?_⟩
    rw [parse_eq, hb]

/-- What is parsed was read by a form of the library. -/
theorem exists_form_of_parse {table : List (String × Builtin)} {token : String}
    {operands : List Spec} {c : Condition Spec}
    (h : (ofBuiltins table).parse token operands = .ok c) :
    ∃ b : Builtin, b.form.read (Operator.normalize token) operands = .ok c := by
  rcases parse_ofBuiltins table token with hform | ⟨e, herror⟩
  · rw [hform] at h
    exact ⟨_, h⟩
  · rw [herror] at h
    cases h

end Registry

/-! ### Specifications that differ in values -/

/-- Lists whose items agree, each in the role of its place. -/
inductive InRoles {S T : Type} (R : Role → S → T → Prop) : (Nat → Role) → List S → List T → Prop
  | nil {roles : Nat → Role} : InRoles R roles [] []
  | cons {roles : Nat → Role} {a : S} {b : T} {as : List S} {bs : List T} (h : R (roles 0) a b)
      (hs : InRoles R (fun i => roles (i + 1)) as bs) : InRoles R roles (a :: as) (b :: bs)

/-- Specifications that are one tree up to the values in it, given the roles of the
operands of each token. -/
inductive Spec.Agree (roles : String → Nat → Role) : Role → Spec → Spec → Prop
  | same {role : Role} (s : Spec) : Agree roles role s s
  | value {v w : Value} (h : v.type = w.type) :
      Agree roles .value (.scalar (.value v)) (.scalar (.value w))
  /-- What stands in a sub-query has roles of its own. -/
  | subquery {role : Role} {q q' : Subquery Spec} (h : q.Agree (Agree roles .condition) q') :
      Agree roles role (.scalar (.subquery q)) (.scalar (.subquery q'))
  | list {role : Role} {ss ss' : List Spec} (hrole : role ≠ .condition)
      (h : InRoles (Agree roles) (fun _ => role) ss ss') : Agree roles role (.list ss) (.list ss')
  /-- A row of values, or the tests of a hash. -/
  | map {role : Role} {es es' : List (String × Spec)} (hrole : role ≠ .fixed)
      (h : List.Forall₂ (Keyed.Agree (Agree roles .value)) es es') :
      Agree roles role (.map es) (.map es')
  | operator (token : String) {ss ss' : List Spec}
      (h : InRoles (Agree roles) (roles token) ss ss') :
      Agree roles .condition (.operator token ss) (.operator token ss')
  | condition {role : Role} {c c' : Condition Spec} (h : c.Agree (Agree roles .condition) c') :
      Agree roles role (.condition c) (.condition c')

/-- As many operands on both sides, so both meet the arity or neither does. -/
theorem InRoles.length_eq {S T : Type} {R : Role → S → T → Prop} {roles : Nat → Role} {as : List S}
    {bs : List T} (h : InRoles R roles as bs) : as.length = bs.length := by
  induction h with
  | nil => rfl
  | cons _ _ ih => rw [List.length_cons, List.length_cons, ih]

/-- Where every operand has the same role there is nothing to count. -/
theorem InRoles.forall₂ {S T : Type} {R : Role → S → T → Prop} {role : Role} {as : List S}
    {bs : List T} (h : InRoles R (fun _ => role) as bs) : List.Forall₂ (R role) as bs := by
  -- The induction needs the roles to be a variable; they stay constant along the list.
  generalize hroles : (fun _ => role) = roles at h
  induction h with
  | nil => exact .nil
  | cons h _ ih =>
    subst hroles
    exact .cons h (ih rfl)

section

variable {roles : String → Nat → Role} {s s' : Spec}

/-- What is fixed is the same on both sides, a column above all. -/
theorem Column.agree_ofSpec (operator : String) (h : s.Agree roles .fixed s') :
    Attempt.Agree (Column.Agree (Spec.Agree roles .condition)) (Column.ofSpec operator s)
      (Column.ofSpec operator s') := by
  cases h with
  | same => exact .refl (fun c => .refl c fun t _ => .same t) _
  | subquery h => exact .ok (.subquery h)
  | list => exact .error _
  | map hrole => exact absurd rfl hrole
  | condition h =>
    simp only [ofSpec, Spec.shape, h.kind_eq]
    exact .error _

namespace Operand

mutual

/-- A value may differ within its type, at any depth; null, raw SQL and shapes may not, and all
errors are about these. -/
theorem agree_ofSpec (operator : String) : ∀ {s s' : Spec}, s.Agree roles .value s' →
    Attempt.Agree (Operand.Agree (Spec.Agree roles .condition)) (ofSpec operator s)
      (ofSpec operator s')
  | _, _, .same s => .refl (fun o => .refl o fun t _ => .same t) _
  | _, _, .value h => .ok (.scalar (.value h))
  | _, _, .subquery h => .ok (.scalar (.subquery h))
  | .list ss, .list ss', .list _ h => by
    rw [ofSpec, ofSpec]
    exact (agree_ofItems operator h).bind fun _ _ hos => .ok (.list hos)
  | .map es, .map es', .map _ h => by
    rw [ofSpec, ofSpec]
    exact (agree_ofEntries operator h).bind fun _ _ hes => .ok (.row hes)
  | _, _, .condition h => by
    rw [ofSpec, ofSpec, h.kind_eq]
    exact .error _

/-- Members are values, each of them. -/
theorem agree_ofItems (operator : String) : ∀ {ss ss' : List Spec},
    InRoles (Spec.Agree roles) (fun _ => .value) ss ss' →
    Attempt.Agree (List.Forall₂ (Operand.Agree (Spec.Agree roles .condition)))
      (ofItems operator ss) (ofItems operator ss')
  | [], [], .nil => .ok .nil
  | s :: ss, s' :: ss', .cons h hs => by
    rw [ofItems, ofItems]
    refine (agree_ofSpec operator h).bind fun o o' ho => ?_
    exact (agree_ofItems operator hs).bind fun _ _ hos => .ok (.cons ho hos)

/-- Entries are values under the same keys. -/
theorem agree_ofEntries (operator : String) : ∀ {es es' : List (String × Spec)},
    List.Forall₂ (Keyed.Agree (Spec.Agree roles .value)) es es' →
    Attempt.Agree (List.Forall₂ (Keyed.Agree (Operand.Agree (Spec.Agree roles .condition))))
      (ofEntries operator es) (ofEntries operator es')
  | [], [], .nil => .ok .nil
  | (k, s) :: es, (_, s') :: es', .cons (.mk _ h) hs => by
    rw [ofEntries, ofEntries]
    refine (agree_ofSpec operator h).bind fun o o' ho => ?_
    exact (agree_ofEntries operator hs).bind fun _ _ hos => .ok (.cons (.mk k ho) hos)

end

end Operand

/-- An operand that is no scalar has the same shape on both sides, so the same error. -/
theorem Scalar.agree_ofSpec (operator : String) (h : s.Agree roles .value s') :
    Attempt.Agree (Scalar.Agree (Spec.Agree roles .condition)) (Scalar.ofSpec operator s)
      (Scalar.ofSpec operator s') := by
  refine (Operand.agree_ofSpec operator h).bind fun o o' ho => ?_
  cases ho with
  | scalar h => exact .ok h
  | list => exact .error _
  | row => exact .error _

/-- The escaping is fixed. -/
theorem Escaping.agree_ofSpec (operator : String) (h : s.Agree roles .fixed s') :
    Attempt.Agree Eq (Escaping.ofSpec operator s) (Escaping.ofSpec operator s') := by
  cases h with
  | same => exact .refl (fun _ => rfl) _
  | subquery => exact .error _
  | list => exact .error _
  | map hrole => exact absurd rfl hrole
  | condition h =>
    simp only [ofSpec, Spec.shape, h.kind_eq]
    exact .error _

end

/-! ### Typed conditions -/

section

variable {S T : Type} {R : S → T → Prop}

/-- Whether an operator is known does not depend on its operands. -/
theorem Operator.agree_known {α β γ : Type} {P : β → γ → Prop} (token : String) (x : Option α)
    {f : α → Except Error β} {g : α → Except Error γ} (h : ∀ a, Attempt.Agree P (f a) (g a)) :
    Attempt.Agree P (known token x >>= f) (known token x >>= g) :=
  (Attempt.Agree.refl (P := Eq) (fun _ => rfl) (known token x)).bind fun a _ hab => hab ▸ h a

/-- A sub-query is refused on both sides. -/
theorem PlainColumn.agree_ofColumn (operator : String) {c : Column S} {c' : Column T}
    (h : c.Agree R c') : Attempt.Agree Eq (ofColumn operator c) (ofColumn operator c') := by
  cases h with
  | name n => exact .ok rfl
  | raw sql => exact .ok rfl
  | subquery => exact .error _

/-- A row is refused on both sides. -/
theorem HashTest.agree_ofOperand (column : String) {o : Operand S} {o' : Operand T}
    (h : o.Agree R o') :
    Attempt.Agree (HashTest.Agree R) (ofOperand column o) (ofOperand column o') := by
  cases h with
  | scalar h => exact .ok (.scalar h)
  | list h => exact .ok (.list h)
  | row => exact .error _

/-- A single operand is a list of one on both sides. -/
theorem Candidates.agree_ofOperand {o : Operand S} {o' : Operand T} (h : o.Agree R o') :
    (ofOperand o).Agree R (ofOperand o') := by
  cases h with
  | scalar h =>
    cases h with
    | null => exact .members (.cons (.scalar .null) .nil)
    | value h => exact .members (.cons (.scalar (.value h)) .nil)
    | raw sql => exact .members (.cons (.scalar (.raw sql)) .nil)
    | subquery h => exact .subquery h
  | list h => exact .members h
  | row h => exact .members (.cons (.row h) .nil)

/-- Whether a value can be a pattern is a matter of its type. -/
theorem Value.isSome_patternText? (v : Value) :
    v.patternText?.isSome = [ValueType.text, .int, .float].contains v.type := by
  cases v with
  | bool b => rfl
  | int n => rfl
  | float x => rfl
  | text s => rfl
  | bytes bs => rfl
  | json j => rfl

/-- Whether a value can be a pattern is decided by its type alone. -/
theorem Pattern.agree_ofOperand (operator : String) {o : Operand S} {o' : Operand T}
    (h : o.Agree R o') :
    Attempt.Agree (Pattern.Agree R) (ofOperand operator o) (ofOperand operator o') := by
  cases h with
  | scalar h =>
    cases h with
    | null => exact .error _
    | @value v w h =>
      -- The texts may differ, but both values have one or neither has.
      have hsome : v.patternText?.isSome = w.patternText?.isSome := by
        rw [Value.isSome_patternText?, Value.isSome_patternText?, h]
      simp only [ofOperand]
      cases hv : v.patternText? with
      | none =>
        rw [hv, Option.isSome_none, eq_comm, Option.isSome_eq_false_iff, Option.isNone_iff_eq_none]
          at hsome
        rw [hsome, h]
        exact .error _
      | some t =>
        rw [hv, Option.isSome_some, eq_comm, Option.isSome_iff_exists] at hsome
        obtain ⟨t', ht'⟩ := hsome
        rw [ht']
        exact .ok (.text t t')
    | raw sql => exact .ok (.raw sql)
    | subquery h => exact .ok (.subquery h)
  | list => exact .error _
  | row => exact .error _

/-- A single operand is its only member, on both sides. -/
theorem Operand.agree_members {o : Operand S} {o' : Operand T} (h : o.Agree R o') :
    List.Forall₂ (Operand.Agree R) o.members o'.members := by
  cases h with
  | scalar h => exact .cons (.scalar h) .nil
  | list h => exact h
  | row h => exact .cons (.row h) .nil

namespace Condition

/-- The first entry that is refused is the same one on both sides. -/
theorem agree_ofTests {es : List (String × Operand S)} {es' : List (String × Operand T)}
    (h : List.Forall₂ (Keyed.Agree (Operand.Agree R)) es es') :
    Attempt.Agree (Condition.Agree R) (ofTests es) (ofTests es') := by
  refine (Attempt.Agree.mapM (Q := Keyed.Agree (HashTest.Agree R)) h fun e e' he => ?_).bind
    fun _ _ hes => .ok (.hash hes)
  obtain ⟨key, ho⟩ := he
  exact (HashTest.agree_ofOperand key ho).bind fun _ _ ht => .ok (.mk key ht)

theorem agree_ofComparison {c : Column S} {c' : Column T} (token : String) {x : Scalar S}
    {x' : Scalar T} (hc : c.Agree R c') (hx : x.Agree R x') :
    Attempt.Agree (Condition.Agree R) (ofComparison c token (.scalar x))
      (ofComparison c' token (.scalar x')) :=
  Operator.agree_known _ _ fun operator => .ok (.comparison operator hc hx)

/-- The operator and the columns are judged before the values, and are the same. -/
theorem agree_ofMembership {cs : List (Column S)} {cs' : List (Column T)} (token : String)
    {o : Operand S} {o' : Operand T} (hcs : List.Forall₂ (Column.Agree R) cs cs')
    (ho : o.Agree R o') :
    Attempt.Agree (Condition.Agree R) (ofMembership cs token o) (ofMembership cs' token o') := by
  refine Operator.agree_known _ _ fun polarity => ?_
  refine (Attempt.Agree.mapM hcs fun _ _ => PlainColumn.agree_ofColumn _).bind fun cs cs' hcs => ?_
  rw [List.forall₂_eq_eq_eq] at hcs
  subst hcs
  exact .ok (.membership cs polarity (Candidates.agree_ofOperand ho))

theorem agree_ofBetween {c : Column S} {c' : Column T} (token : String) {x y : Scalar S}
    {x' y' : Scalar T} (hc : c.Agree R c') (hx : x.Agree R x') (hy : y.Agree R y') :
    Attempt.Agree (Condition.Agree R) (ofBetween c token (.scalar x) (.scalar y))
      (ofBetween c' token (.scalar x') (.scalar y')) :=
  Operator.agree_known _ _ fun polarity => .ok (.between polarity hc hx hy)

theorem agree_ofBetweenColumns {x : Scalar S} {x' : Scalar T} (token : String)
    {b c : Column S} {b' c' : Column T} (hx : x.Agree R x') (hb : b.Agree R b')
    (hc : c.Agree R c') :
    Attempt.Agree (Condition.Agree R) (ofBetweenColumns (.scalar x) token b c)
      (ofBetweenColumns (.scalar x') token b' c') :=
  Operator.agree_known _ _ fun polarity => .ok (.betweenColumns polarity hx hb hc)

/-- The members are judged by their types, in their order. -/
theorem agree_ofPatterns {c : Column S} {c' : Column T} (token : String) {o : Operand S}
    {o' : Operand T} (escaping : Escaping) (hc : c.Agree R c') (ho : o.Agree R o') :
    Attempt.Agree (Condition.Agree R) (ofPatterns c token o escaping)
      (ofPatterns c' token o' escaping) := by
  refine Operator.agree_known _ _ fun like => ?_
  have hps := Attempt.Agree.mapM (Operand.agree_members ho) fun _ _ => Pattern.agree_ofOperand token
  exact hps.bind fun _ _ hps => .ok (.pattern like escaping hc hps)

theorem agree_ofJunction (token : String) {cs : List S} {cs' : List T} (h : List.Forall₂ R cs cs') :
    Attempt.Agree (Condition.Agree R) (ofJunction token cs) (ofJunction token cs') :=
  Operator.agree_known _ _ fun junction => .ok (.junction junction h)

theorem agree_ofExistence (token : String) {q : Subquery S} {q' : Subquery T}
    (h : q.Agree R q') :
    Attempt.Agree (Condition.Agree R) (ofExistence token q) (ofExistence token q') :=
  Operator.agree_known _ _ fun polarity => .ok (.existence polarity h)

end Condition

end

/-! ### Operands -/

namespace Condition

variable {roles : String → Nat → Role}

/-- Of the wrong number of operands it only matters how many they are. -/
theorem agree_arity {S T : Type} {P : Condition S → Condition T → Prop} {ss ss' : List Spec}
    {role : Nat → Role} (operator : String) (arity : Arity)
    (h : InRoles (Spec.Agree roles) role ss ss') :
    Attempt.Agree P (.error (.arity operator arity ss.length))
      (.error (.arity operator arity ss'.length)) := by
  rw [h.length_eq]
  exact .error _

/-- A column is fixed, and what it is compared with is a value. -/
theorem agree_readComparison (operator : String) : ∀ {ss ss' : List Spec},
    InRoles (Spec.Agree roles) (Builtin.role .comparison) ss ss' →
    Attempt.Agree (Condition.Agree (Spec.Agree roles .condition)) (readComparison operator ss)
      (readComparison operator ss')
  | [_, _], [_, _], .cons hc (.cons hx .nil) =>
    (Column.agree_ofSpec operator hc).bind fun _ _ hc =>
      (Scalar.agree_ofSpec operator hx).bind fun _ _ hx => agree_ofComparison operator hc hx
  | [], [], .nil => .error _
  | [_], [_], .cons _ .nil => .error _
  | _ :: _ :: _ :: _, _ :: _ :: _ :: _, h@(.cons _ (.cons _ (.cons _ _))) => agree_arity _ _ h

/-- One column or a list of them, and each of them fixed. -/
theorem agree_readColumns (operator : String) {s s' : Spec} (h : s.Agree roles .fixed s') :
    Attempt.Agree (List.Forall₂ (Column.Agree (Spec.Agree roles .condition)))
      (readColumns operator s) (readColumns operator s') := by
  -- All but a list is a single column.
  have hsingle := (Column.agree_ofSpec operator h).bind (Q := List.Forall₂ (Column.Agree _))
    fun _ _ hc => .ok (.cons hc .nil)
  cases h with
  | same s =>
    refine .refl (fun cs => List.forall₂_same.2 fun c _ => ?_) _
    exact .refl c fun t _ => .same t
  | subquery => exact hsingle
  | list _ h => exact .mapM h.forall₂ fun _ _ => Column.agree_ofSpec operator
  | map => exact hsingle
  | condition => exact hsingle

/-- The columns are fixed, and the members are values. -/
theorem agree_readMembership (operator : String) : ∀ {ss ss' : List Spec},
    InRoles (Spec.Agree roles) (Builtin.role .membership) ss ss' →
    Attempt.Agree (Condition.Agree (Spec.Agree roles .condition)) (readMembership operator ss)
      (readMembership operator ss')
  | [_, _], [_, _], .cons hcs (.cons hx .nil) =>
    (agree_readColumns operator hcs).bind fun _ _ hcs =>
      (Operand.agree_ofSpec operator hx).bind fun _ _ hx => agree_ofMembership operator hcs hx
  | [], [], .nil => .error _
  | [_], [_], .cons _ .nil => .error _
  | _ :: _ :: _ :: _, _ :: _ :: _ :: _, h@(.cons _ (.cons _ (.cons _ _))) => agree_arity _ _ h

/-- The column is fixed, and the bounds are values. -/
theorem agree_readBetween (operator : String) : ∀ {ss ss' : List Spec},
    InRoles (Spec.Agree roles) (Builtin.role .between) ss ss' →
    Attempt.Agree (Condition.Agree (Spec.Agree roles .condition)) (readBetween operator ss)
      (readBetween operator ss')
  | [_, _, _], [_, _, _], .cons hc (.cons hx (.cons hy .nil)) =>
    (Column.agree_ofSpec operator hc).bind fun _ _ hc =>
      (Scalar.agree_ofSpec operator hx).bind fun _ _ hx =>
        (Scalar.agree_ofSpec operator hy).bind fun _ _ hy => agree_ofBetween operator hc hx hy
  | [], [], .nil => .error _
  | [_], [_], .cons _ .nil => .error _
  | [_, _], [_, _], .cons _ (.cons _ .nil) => .error _
  | _ :: _ :: _ :: _ :: _, _ :: _ :: _ :: _ :: _,
      h@(.cons _ (.cons _ (.cons _ (.cons _ _)))) => agree_arity _ _ h

/-- The first operand is the value here, and the bounds are columns. -/
theorem agree_readBetweenColumns (operator : String) : ∀ {ss ss' : List Spec},
    InRoles (Spec.Agree roles) (Builtin.role .betweenColumns) ss ss' →
    Attempt.Agree (Condition.Agree (Spec.Agree roles .condition))
      (readBetweenColumns operator ss) (readBetweenColumns operator ss')
  | [_, _, _], [_, _, _], .cons hx (.cons hb (.cons hc .nil)) =>
    (Scalar.agree_ofSpec operator hx).bind fun _ _ hx =>
      (Column.agree_ofSpec operator hb).bind fun _ _ hb =>
        (Column.agree_ofSpec operator hc).bind fun _ _ hc =>
          agree_ofBetweenColumns operator hx hb hc
  | [], [], .nil => .error _
  | [_], [_], .cons _ .nil => .error _
  | [_, _], [_, _], .cons _ (.cons _ .nil) => .error _
  | _ :: _ :: _ :: _ :: _, _ :: _ :: _ :: _ :: _,
      h@(.cons _ (.cons _ (.cons _ (.cons _ _)))) => agree_arity _ _ h

/-- The escaping is fixed as the column is, since it is no value that is bound. -/
theorem agree_readPatternWith (operator : String) {c c' x x' e e' : Spec}
    (hc : c.Agree roles .fixed c') (hx : x.Agree roles .value x') (he : e.Agree roles .fixed e') :
    Attempt.Agree (Condition.Agree (Spec.Agree roles .condition))
      (readPatternWith operator c x e) (readPatternWith operator c' x' e') := by
  refine (Column.agree_ofSpec operator hc).bind fun _ _ hc => ?_
  refine (Operand.agree_ofSpec operator hx).bind fun _ _ hx => ?_
  refine (Escaping.agree_ofSpec operator he).bind fun escaping _ he => ?_
  subst he
  exact agree_ofPatterns operator escaping hc hx

/-- With or without an escaping, by the number of operands. -/
theorem agree_readPattern (operator : String) : ∀ {ss ss' : List Spec},
    InRoles (Spec.Agree roles) (Builtin.role .pattern) ss ss' →
    Attempt.Agree (Condition.Agree (Spec.Agree roles .condition)) (readPattern operator ss)
      (readPattern operator ss')
  | [_, _], [_, _], .cons hc (.cons hx .nil) => agree_readPatternWith operator hc hx (.same _)
  | [_, _, _], [_, _, _], .cons hc (.cons hx (.cons he .nil)) =>
    agree_readPatternWith operator hc hx he
  | [], [], .nil => .error _
  | [_], [_], .cons _ .nil => .error _
  | _ :: _ :: _ :: _ :: _, _ :: _ :: _ :: _ :: _,
      h@(.cons _ (.cons _ (.cons _ (.cons _ _)))) => agree_arity _ _ h

/-- The operand is a condition, and it is not looked into here. -/
theorem agree_readNegation (operator : String) : ∀ {ss ss' : List Spec},
    InRoles (Spec.Agree roles) (Builtin.role .negation) ss ss' →
    Attempt.Agree (Condition.Agree (Spec.Agree roles .condition)) (readNegation operator ss)
      (readNegation operator ss')
  | [_], [_], .cons h .nil => .ok (.negation h)
  | [], [], .nil => .error _
  | _ :: _ :: _, _ :: _ :: _, h@(.cons _ (.cons _ _)) => agree_arity _ _ h

/-- Any number of conditions, in their order. -/
theorem agree_readJunction (operator : String) {ss ss' : List Spec}
    (h : InRoles (Spec.Agree roles) (Builtin.role .junction) ss ss') :
    Attempt.Agree (Condition.Agree (Spec.Agree roles .condition)) (readJunction operator ss)
      (readJunction operator ss') :=
  agree_ofJunction operator (InRoles.forall₂ (S := Spec) h)

/-- The query is a value slot, so its own conditions may differ in their values. -/
theorem agree_readExistence (operator : String) : ∀ {ss ss' : List Spec},
    InRoles (Spec.Agree roles) (Builtin.role .existence) ss ss' →
    Attempt.Agree (Condition.Agree (Spec.Agree roles .condition)) (readExistence operator ss)
      (readExistence operator ss')
  | [_], [_], .cons h .nil => by
    cases h with
    | same => exact .refl (fun c => .refl c fun t _ => .same t) _
    | subquery h => exact agree_ofExistence operator h
    | list => exact .error _
    | map hrole => exact absurd rfl hrole
    | condition h =>
      simp only [readExistence, Spec.shape, h.kind_eq]
      exact .error _
  | [], [], .nil => .error _
  | _ :: _ :: _, _ :: _ :: _, h@(.cons _ (.cons _ _)) => by
    simp only [readExistence]
    exact agree_arity _ _ h

/-- Each form sees of its operands what their roles say. -/
theorem agree_form (b : Builtin) (operator : String) {ss ss' : List Spec}
    (h : InRoles (Spec.Agree roles) b.role ss ss') :
    Attempt.Agree (Condition.Agree (Spec.Agree roles .condition)) (b.form.read operator ss)
      (b.form.read operator ss') := by
  cases b with
  | comparison => exact agree_readComparison operator h
  | membership => exact agree_readMembership operator h
  | between => exact agree_readBetween operator h
  | betweenColumns => exact agree_readBetweenColumns operator h
  | pattern => exact agree_readPattern operator h
  | negation => exact agree_readNegation operator h
  | junction => exact agree_readJunction operator h
  | existence => exact agree_readExistence operator h

/-- The values of a mapping are values, and its keys are columns. -/
theorem agree_ofMap {es es' : List (String × Spec)}
    (h : List.Forall₂ (Keyed.Agree (Spec.Agree roles .value)) es es') :
    Attempt.Agree (Condition.Agree (Spec.Agree roles .condition)) (ofMap es) (ofMap es') := by
  refine (Attempt.Agree.mapM (Q := Keyed.Agree (Operand.Agree _)) h fun e e' he => ?_).bind
    fun _ _ hes => agree_ofTests hes
  obtain ⟨key, hs⟩ := he
  exact (Operand.agree_ofSpec key hs).bind fun _ _ ho => .ok (.mk key ho)

end Condition

/-! ### Levels -/

/-- What fails fails with one error, and what is read agrees. -/
theorem Reading.agree_ofExcept {S T : Type} {R : S → T → Prop} {x : Except Error (Condition S)}
    {x' : Except Error (Condition T)} (h : Attempt.Agree (Condition.Agree R) x x') :
    (ofExcept x).Agree R (ofExcept x') := by
  cases h with
  | ok h => exact .node h
  | error e => exact .failed e

/-- The roles of the operands of each token. -/
def Registry.roles (table : List (String × Builtin)) (token : String) : Nat → Role :=
  (builtin table token).role

/-- **One level of two specifications that agree** is read to things that agree, and what stands
in them agrees again. -/
theorem Spec.Agree.read (table : List (String × Builtin)) {s s' : Spec}
    (h : s.Agree (Registry.roles table) .condition s') :
    (s.read (Registry.ofBuiltins table)).Agree (Spec.Agree (Registry.roles table) .condition)
      (s'.read (Registry.ofBuiltins table)) := by
  cases h with
  | same => exact .refl _ fun t _ => .same t
  | subquery => exact .failed _
  -- A list in the role of a condition is an operator with its operands.
  | list hrole => exact absurd rfl hrole
  | map _ h =>
    cases h with
    | nil => exact .text _
    | cons he hes => exact Reading.agree_ofExcept (Condition.agree_ofMap (.cons he hes))
  | operator token h =>
    refine Reading.agree_ofExcept ?_
    rcases Registry.parse_ofBuiltins table token with hparse | ⟨e, hparse⟩
    · rw [hparse, hparse]
      exact Condition.agree_form _ _ h
    · rw [hparse, hparse]
      exact .error e
  | condition h => exact .node h

end WhereClause
