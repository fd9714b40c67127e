/-
WhereClause/Proofs/Cause.lean

Errors that carry no path.  A path comes from junctions and negations alone, when
what they are made of fails; reading fails with causes, and so does writing a node
of any other kind unless a sub-query in it fails.

Main results: reading one level of a specification fails with causes
(`Spec.isCause_of_read`), and so does writing a node in which no condition stands
(`Condition.causes_render`).
-/
import WhereClause.Proofs.Independence

namespace WhereClause

/-- An error without a path to it. -/
def Error.IsCause (e : Error) : Prop := e.path = []

/-- A cause is its own root. -/
theorem Error.IsCause.root_eq {e : Error} (h : e.IsCause) : e.root = e := by
  cases e with
  | within place inner => exact absurd h (by simp [IsCause, path])
  | _ => rfl

/-! ### Attempts -/

namespace Attempt

variable {α β : Type}

/-- If the attempt fails then with a cause. -/
def Causes (x : Except Error α) : Prop := ∀ e, x = .error e → e.IsCause

theorem Causes.ok (a : α) : Causes (.ok a) := fun e h => absurd h (by simp)

theorem Causes.error {e : Error} (h : e.IsCause) : Causes (.error e : Except Error α) :=
  fun _ he => Except.error.inj he ▸ h

/-- The first of two attempts that fails decides on the error. -/
theorem Causes.bind {x : Except Error α} {f : α → Except Error β} (hx : Causes x)
    (hf : ∀ a, Causes (f a)) : Causes (x >>= f) := by
  cases x with
  | ok a => exact hf a
  | error e => exact .error (hx e rfl)

/-- Attempts are made in turn, and one that fails is the last. -/
theorem Causes.mapM {f : α → Except Error β} (hf : ∀ a, Causes (f a)) (as : List α) :
    Causes (as.mapM f) := by
  induction as with
  | nil => exact .ok []
  | cons a as ih =>
    rw [List.mapM_cons]
    apply Causes.bind (hf a)
    intro b
    apply Causes.bind ih
    intro bs
    exact .ok (b :: bs)

end Attempt

open Attempt

/-! ### Specifications in their places -/

/-- What is no column is refused, and there is no path to it. -/
theorem Column.causes_ofSpec (operator : String) (s : Spec) : Causes (ofSpec operator s) := by
  unfold ofSpec
  split
  · split
    · exact .error rfl
    · exact .ok _
  · exact .ok _
  · exact .ok _
  · exact .error rfl

namespace Operand

mutual

/-- The induction is on the specification, with one statement for it, its items and its entries.
A condition in a value slot is refused where it stands, and the error names no place in it. -/
theorem causes_ofSpec (operator : String) : ∀ s : Spec, Causes (ofSpec operator s)
  | .scalar s => by
    rw [ofSpec]
    exact .ok _
  | .list items => by
    rw [ofSpec]
    exact (causes_ofItems operator items).bind fun _ => .ok _
  | .map entries => by
    rw [ofSpec]
    exact (causes_ofEntries operator entries).bind fun _ => .ok _
  | .condition c => by
    rw [ofSpec]
    exact .error rfl

/-- The items of a list are read in turn. -/
theorem causes_ofItems (operator : String) : ∀ ss : List Spec, Causes (ofItems operator ss)
  | [] => .ok []
  | s :: ss => by
    rw [ofItems]
    apply Causes.bind (causes_ofSpec operator s)
    intro o
    exact (causes_ofItems operator ss).bind fun _ => .ok _

/-- The values of a mapping are read in turn. -/
theorem causes_ofEntries (operator : String) :
    ∀ es : List (String × Spec), Causes (ofEntries operator es)
  | [] => .ok []
  | (k, s) :: es => by
    rw [ofEntries]
    apply Causes.bind (causes_ofSpec operator s)
    intro o
    exact (causes_ofEntries operator es).bind fun _ => .ok _

end

/-- A list or a row is refused in a scalar slot. -/
theorem causes_toScalar {S : Type} (operator : String) (o : Operand S) :
    Causes (o.toScalar operator) := by
  cases o with
  | scalar s => exact .ok s
  | _ => exact .error rfl

end Operand

/-- A scalar slot refuses what is no operand, and what is no scalar. -/
theorem Scalar.causes_ofSpec (operator : String) (s : Spec) : Causes (ofSpec operator s) :=
  (Operand.causes_ofSpec operator s).bind (Operand.causes_toScalar operator)

/-- An escape table is refused with a cause, at whatever entry. -/
theorem Escaping.causes_ofSpec (operator : String) (s : Spec) : Causes (ofSpec operator s) := by
  have hreplacement : ∀ e, Causes (replacement operator e) := by
    intro e
    unfold replacement
    split
    · split
      · exact .ok _
      · exact .error rfl
    · exact .error rfl
  unfold ofSpec
  split
  · exact .ok _
  · exact .ok _
  · exact (Causes.mapM hreplacement _).bind fun _ => .ok _
  · exact .error rfl

/-! ### Typed conditions -/

section

variable {S : Type}

/-- An unknown operator is a cause. -/
theorem Operator.causes_known {α : Type} (token : String) (x : Option α) :
    Causes (known token x) := by
  cases x with
  | some a => exact .ok a
  | none => exact .error rfl

/-- A sub-query among the columns of a test of membership is refused. -/
theorem PlainColumn.causes_ofColumn (operator : String) (c : Column S) :
    Causes (ofColumn operator c) := by
  cases c with
  | subquery q => exact .error rfl
  | _ => exact .ok _

/-- A mapping is no value of a hash. -/
theorem HashTest.causes_ofOperand (column : String) (o : Operand S) :
    Causes (ofOperand column o) := by
  cases o with
  | row entries => exact .error rfl
  | _ => exact .ok _

/-- What is no pattern is refused, and the operator is named in the error but not in a path. -/
theorem Pattern.causes_ofOperand (operator : String) (o : Operand S) :
    Causes (ofOperand operator o) := by
  unfold ofOperand
  split
  · split
    · exact .ok _
    · exact .error rfl
  · exact .ok _
  · exact .ok _
  · exact .error rfl

namespace Condition

/-- The operator is judged first, then the columns one by one. -/
theorem causes_ofMembership (columns : List (Column S)) (token : String) (values : Operand S) :
    Causes (ofMembership columns token values) := by
  apply Causes.bind (Operator.causes_known _ _)
  intro polarity
  apply Causes.bind (Causes.mapM (PlainColumn.causes_ofColumn _) columns)
  intro plain
  exact .ok _

/-- The operator is judged first, then the values one by one. -/
theorem causes_ofPatterns (column : Column S) (token : String) (values : Operand S)
    (escaping : Escaping) : Causes (ofPatterns column token values escaping) := by
  apply Causes.bind (Operator.causes_known _ _)
  intro operator
  apply Causes.bind (Causes.mapM (Pattern.causes_ofOperand token) _)
  intro patterns
  exact .ok _

end Condition

end

/-! ### Operands -/

namespace Condition

variable (operator : String) (operands : List Spec)

/-- The readers differ in the places they read, and in nothing that matters to a path. -/
theorem causes_readComparison : Causes (readComparison operator operands) := by
  unfold readComparison
  split
  · apply Causes.bind (Column.causes_ofSpec _ _)
    intro column
    apply Causes.bind (Scalar.causes_ofSpec _ _)
    intro value
    exact (Operator.causes_known _ _).bind fun _ => .ok _
  · exact .error rfl

/-- One column or a list of columns, and then the values. -/
theorem causes_readMembership : Causes (readMembership operator operands) := by
  unfold readMembership
  split
  · apply Causes.bind
    · unfold readColumns
      split
      · exact .mapM (Column.causes_ofSpec operator) _
      · exact (Column.causes_ofSpec _ _).bind fun _ => .ok _
    · intro columns
      apply Causes.bind (Operand.causes_ofSpec _ _)
      intro values
      exact causes_ofMembership _ _ _
  · exact .error rfl

theorem causes_readBetween : Causes (readBetween operator operands) := by
  unfold readBetween
  split
  · apply Causes.bind (Column.causes_ofSpec _ _)
    intro column
    apply Causes.bind (Scalar.causes_ofSpec _ _)
    intro low
    apply Causes.bind (Scalar.causes_ofSpec _ _)
    intro high
    exact (Operator.causes_known _ _).bind fun _ => .ok _
  · exact .error rfl

theorem causes_readBetweenColumns : Causes (readBetweenColumns operator operands) := by
  unfold readBetweenColumns
  split
  · apply Causes.bind (Scalar.causes_ofSpec _ _)
    intro value
    apply Causes.bind (Column.causes_ofSpec _ _)
    intro low
    apply Causes.bind (Column.causes_ofSpec _ _)
    intro high
    exact (Operator.causes_known _ _).bind fun _ => .ok _
  · exact .error rfl

theorem causes_readPattern : Causes (readPattern operator operands) := by
  have hwith (column values escaping : Spec) :
      Causes (readPatternWith operator column values escaping) := by
    apply Causes.bind (Column.causes_ofSpec _ _)
    intro column
    apply Causes.bind (Operand.causes_ofSpec _ _)
    intro values
    apply Causes.bind (Escaping.causes_ofSpec _ _)
    intro escaping
    exact causes_ofPatterns _ _ _ _
  unfold readPattern
  split
  · exact hwith _ _ _
  · exact hwith _ _ _
  · exact .error rfl

/-- The operand is not read yet, so what it is has no part in the error. -/
theorem causes_readNegation : Causes (readNegation operator operands) := by
  unfold readNegation
  split
  · exact .ok _
  · exact .error rfl

/-- The operands are not read yet. -/
theorem causes_readJunction : Causes (readJunction operator operands) :=
  (Operator.causes_known _ _).bind fun _ => .ok _

/-- What is no sub-query is refused. -/
theorem causes_readExistence : Causes (readExistence operator operands) := by
  unfold readExistence
  split
  · exact (Operator.causes_known _ _).bind fun _ => .ok _
  · exact .error rfl
  · exact .error rfl

/-- All the values are read first, and then each is judged. -/
theorem causes_ofMap (entries : List (String × Spec)) : Causes (ofMap entries) := by
  have hoperands : Causes (entries.mapM fun e => do
      return (e.1, ← Operand.ofSpec e.1 e.2)) := by
    apply Causes.mapM
    intro e
    exact (Operand.causes_ofSpec _ _).bind fun _ => .ok _
  apply Causes.bind hoperands
  intro operands
  -- The operands are judged when all of them have been read.
  have htests : Causes (operands.mapM fun e => do
      return (e.1, ← HashTest.ofOperand e.1 e.2)) := by
    apply Causes.mapM
    intro e
    exact (HashTest.causes_ofOperand _ _).bind fun _ => .ok _
  exact htests.bind fun _ => .ok _

end Condition

/-- The forms of the library fail with causes. -/
theorem Builtin.causes_read (b : Builtin) (operator : String) (operands : List Spec) :
    Causes (b.form.read operator operands) := by
  cases b with
  | comparison => exact Condition.causes_readComparison operator operands
  | membership => exact Condition.causes_readMembership operator operands
  | between => exact Condition.causes_readBetween operator operands
  | betweenColumns => exact Condition.causes_readBetweenColumns operator operands
  | pattern => exact Condition.causes_readPattern operator operands
  | negation => exact Condition.causes_readNegation operator operands
  | junction => exact Condition.causes_readJunction operator operands
  | existence => exact Condition.causes_readExistence operator operands

/-- A token without a reader fails with a cause as well. -/
theorem Registry.causes_parse (table : List (String × Builtin)) (token : String)
    (operands : List Spec) : Causes ((ofBuiltins table).parse token operands) := by
  rw [parse_eq]
  split
  · exact Builtin.causes_read _ _ _
  · exact .error rfl

/-- **Reading fails with causes.** -/
theorem Spec.isCause_of_read (table : List (String × Builtin)) {s : Spec} {e : Error}
    (h : s.read (.ofBuiltins table) = .failed e) : e.IsCause := by
  have hexcept : ∀ {x : Except Error (Condition Spec)}, Causes x →
      Reading.ofExcept x = .failed e → e.IsCause := by
    intro x hx h
    cases x with
    | ok c => exact absurd h (by simp [Reading.ofExcept])
    | error e' => exact hx e (congrArg Except.error (Reading.failed.inj h))
  -- The shape is refused here, or what is read fails with a cause.
  unfold read at h
  split at h
  · exact absurd h (by simp)
  · exact absurd h (by simp)
  · split at h
    · exact absurd h (by simp)
    · exact Reading.failed.inj h ▸ rfl
  · exact Reading.failed.inj h ▸ rfl
  · exact absurd h (by simp)
  · exact hexcept (Registry.causes_parse table _ _) h
  · exact Reading.failed.inj h ▸ rfl
  · exact absurd h (by simp)
  · exact hexcept (Condition.causes_ofMap _) h
  · exact absurd h (by simp)

/-! ### Rendering -/

namespace Render

variable {α β : Type}

/-- If the step fails then with a cause. -/
def Causes (x : Render α) : Prop := ∀ sink e, (x sink).1 = .error e → e.IsCause

theorem Causes.pure (a : α) : Causes (Pure.pure a : Render α) := fun sink e h => by cases h

/-- A step that fails with a cause. -/
theorem Causes.fail {e : Error} (h : e.IsCause) : Causes (fail e : Render α) :=
  fun _ _ he => Except.error.inj he ▸ h

theorem Causes.value (d : Dialect) (v : Value) : Causes (d.bind v) := fun sink e h => by cases h

/-- A step that fails is followed by none, so the error is that of the first or of the second.
-/
theorem Causes.bind {x : Render α} {f : α → Render β} (hx : Causes x) (hf : ∀ a, Causes (f a)) :
    Causes (x >>= f) := by
  intro sink e h
  rw [bind_apply] at h
  rcases hrun : x sink with ⟨e' | a, s⟩
  · rw [hrun] at h
    obtain rfl : e' = e := Except.error.inj h
    exact hx sink e' (by rw [hrun])
  · rw [hrun] at h
    exact hf a s e h

/-- What is made of a result fails as the step does. -/
theorem Causes.map {x : Render α} (hx : Causes x) (f : α → β) :
    Causes (x >>= fun a => Pure.pure (f a)) :=
  hx.bind fun a => .pure (f a)

/-- The first step of a list that fails decides on the error. -/
theorem Causes.mapM {f : α → Render β} {as : List α} (hf : ∀ a ∈ as, Causes (f a)) :
    Causes (as.mapM f) := by
  induction as with
  | nil => exact .pure []
  | cons a as ih =>
    obtain ⟨ha, has⟩ := List.forall_mem_cons.1 hf
    rw [List.mapM_cons]
    apply Causes.bind ha
    intro b
    exact (ih has).map fun bs => b :: bs

end Render

open Render

section

variable {S : Type} {f : S → Render String} {d : Dialect}

/-- Only a sub-query can fail on a side of a test, and its errors are passed on. -/
theorem Scalar.causes_render {s : Scalar S}
    (h : ∀ q ∈ s.subqueries, Render.Causes ((q.map f).render d)) :
    Render.Causes ((s.map f).render d) := by
  cases s with
  | null => exact .pure _
  | value v => exact .value d v
  | raw sql => exact .pure _
  | subquery q => exact (h q (List.mem_singleton.2 rfl)).map _

theorem Column.causes_render {c : Column S}
    (h : ∀ q ∈ c.subqueries, Render.Causes ((q.map f).render d)) :
    Render.Causes ((c.map f).render d) := by
  cases c with
  | name n => exact .pure _
  | raw sql => exact .pure _
  | subquery q => exact (h q (List.mem_singleton.2 rfl)).map _

theorem Pattern.causes_render (table : Option (List (Char × String))) {p : Pattern S}
    (h : ∀ q ∈ p.subqueries, Render.Causes ((q.map f).render d)) :
    Render.Causes ((p.map f).render d table) := by
  cases p with
  | text s => exact .value d _
  | raw sql => exact .pure _
  | subquery q => exact (h q (List.mem_singleton.2 rfl)).map _

namespace Membership

/-- A sub-query among the members is refused here, whatever it would do. -/
theorem causes_renderMember (operator : String) (m : Option (Operand (Render String))) :
    Render.Causes (renderMember d operator m) := by
  unfold renderMember
  split
  · exact .pure none
  · exact .pure none
  · exact (Causes.value d _).map some
  · exact .pure _
  · exact .fail rfl

/-- In a row a sub-query is written, so its errors count. -/
theorem causes_renderEntry (operator : String) {m : Option (Operand S)}
    (h : ∀ o ∈ m, ∀ q ∈ o.subqueries, Render.Causes ((q.map f).render d)) :
    Render.Causes (renderEntry d operator (m.map (Operand.map f))) := by
  cases m with
  | none => exact .pure _
  | some o =>
    rw [Option.map_some]
    cases o with
    | scalar s =>
      rw [Operand.map_scalar]
      exact Scalar.causes_render fun q hq => h _ rfl q (by rwa [Operand.subqueries])
    | list items =>
      rw [Operand.map_list]
      exact .fail rfl
    | row entries =>
      rw [Operand.map_row]
      exact .fail rfl

/-- A scalar where a row is asked for is refused, and all else is up to the entries. -/
theorem causes_renderRow (operator : String) (columns : List PlainColumn) {o : Operand S}
    (h : ∀ q ∈ o.subqueries, Render.Causes ((q.map f).render d)) :
    Render.Causes (renderRow d operator columns (o.map f)) := by
  rw [renderRow, rowEntries_map]
  cases hentries : rowEntries operator columns o with
  | error e =>
    -- A scalar where a row has to stand: the error names what it is.
    refine .fail ?_
    cases o with
    | scalar s => exact Except.error.inj hentries ▸ rfl
    | list items => exact absurd hentries (by simp [rowEntries])
    | row es => exact absurd hentries (by simp [rowEntries])
  | ok entries =>
    have hmapM : Render.Causes
        ((entries.map (Option.map (Operand.map f))).mapM (renderEntry d operator)) := by
      rw [List.mapM_map]
      apply Render.Causes.mapM
      intro m hm
      apply causes_renderEntry operator
      intro o' ho' q hq
      rw [Option.mem_def.1 ho'] at hm
      exact h q (mem_subqueries_of_rowEntries hentries hm hq)
    exact hmapM.map _

/-- A test of membership goes through its members or rows in turn. -/
theorem causes_render (columns : List PlainColumn) (polarity : Polarity) {x : Candidates S}
    (h : ∀ q ∈ x.subqueries, Render.Causes ((q.map f).render d)) :
    Render.Causes (render d columns polarity (x.map f)) := by
  cases x with
  | subquery q =>
    cases columns with
    | nil => exact .pure _
    | cons c cs => exact (h q (List.mem_singleton.2 rfl)).map _
  | members items =>
    rw [Candidates.map_members]
    -- Only where something is written can something fail.
    match columns, items with
    | [], [] => exact .pure _
    | [], _ :: _ => exact .pure _
    | _ :: _, [] => exact .pure _
    | [column], m :: ms =>
      have hmembers : Render.Causes (((m :: ms).map (Operand.map f)).mapM fun o =>
          renderMember d (polarity.apply "IN") (entryUnder column o)) := by
        apply Render.Causes.mapM
        intro o _
        exact causes_renderMember _ _
      exact hmembers.map _
    | c :: c' :: cs, m :: ms =>
      have hrows : Render.Causes (((m :: ms).map (Operand.map f)).mapM
          (renderRow d (polarity.apply "IN") (c :: c' :: cs))) := by
        rw [List.mapM_map]
        apply Render.Causes.mapM
        intro o ho
        apply causes_renderRow
        intro q hq
        exact h q (List.mem_flatMap.2 ⟨o, ho, hq⟩)
      exact hrows.map _

end Membership

/-- The test of an entry is a test of membership, or it cannot fail. -/
theorem HashTest.causes_render (column : String) {e : HashTest S}
    (h : ∀ q ∈ e.subqueries, Render.Causes ((q.map f).render d)) :
    Render.Causes ((e.map f).render d column) := by
  cases e with
  | scalar s =>
    cases s with
    | null => exact .pure _
    | value v => exact (Causes.value d v).map _
    | raw sql => exact .pure _
    | subquery q =>
      exact Membership.causes_render [.name column] .positive (x := .subquery q) h
  | list items =>
    have hitems := Membership.causes_render (d := d) (f := f) [.name column] .positive
      (x := .members items) h
    rw [Candidates.map_members] at hitems
    rw [map_list]
    exact hitems

/-- **A node that is made of no conditions fails with causes**, if its sub-queries do. -/
theorem Condition.causes_render {c : Condition S} (hleaf : c.operands = [])
    (h : ∀ q ∈ c.subqueries, Render.Causes ((q.map f).render d)) :
    Render.Causes ((c.map f).render d) := by
  cases c with
  | hash entries =>
    rw [map_hash]
    have hentries : Render.Causes
        ((entries.map fun e => (e.1, e.2.map f)).mapM fun e => e.2.render d e.1) := by
      rw [List.mapM_map]
      apply Render.Causes.mapM
      intro e he
      apply HashTest.causes_render e.1
      intro q hq
      exact h q (List.mem_flatMap.2 ⟨e, he, hq⟩)
    exact hentries.map _
  | comparison column operator value =>
    obtain ⟨hcolumn, hvalue⟩ := List.forall_mem_append.1 h
    apply Render.Causes.bind (Column.causes_render hcolumn)
    intro x
    exact (Scalar.causes_render hvalue).map _
  | membership columns polarity candidates => exact Membership.causes_render columns polarity h
  | between column polarity low high =>
    obtain ⟨hcolumn, hbounds⟩ := List.forall_mem_append.1 h
    obtain ⟨hlow, hhigh⟩ := List.forall_mem_append.1 hbounds
    apply Render.Causes.bind (Column.causes_render hcolumn)
    intro x
    apply Render.Causes.bind (Scalar.causes_render hlow)
    intro y
    exact (Scalar.causes_render hhigh).map _
  | betweenColumns value polarity low high =>
    obtain ⟨hvalue, hbounds⟩ := List.forall_mem_append.1 h
    obtain ⟨hlow, hhigh⟩ := List.forall_mem_append.1 hbounds
    apply Render.Causes.bind (Scalar.causes_render hvalue)
    intro x
    apply Render.Causes.bind (Column.causes_render hlow)
    intro y
    exact (Column.causes_render hhigh).map _
  | pattern column operator patterns escaping =>
    rw [map_pattern]
    -- Without patterns nothing is written; with some, the column is written first.
    obtain ⟨hcolumn, hpatterns⟩ := List.forall_mem_append.1 h
    cases patterns with
    | nil => exact .pure _
    | cons p ps =>
      have htexts : Render.Causes (((p :: ps).map (·.map f)).mapM
          (Pattern.render d (d.options.escapeTable escaping))) := by
        rw [List.mapM_map]
        apply Render.Causes.mapM
        intro p' hp'
        apply Pattern.causes_render
        intro q hq
        exact hpatterns q (List.mem_flatMap.2 ⟨p', hp', hq⟩)
      apply Render.Causes.bind (Column.causes_render hcolumn)
      intro text
      exact htexts.map _
  | negation inner => exact absurd hleaf (by simp [operands])
  | junction operator operands =>
    -- A junction of no conditions is empty.
    obtain rfl : operands = [] := hleaf
    exact (Causes.pure _).map _
  | existence polarity q => exact (h q (List.mem_singleton.2 rfl)).map _

end

end WhereClause
