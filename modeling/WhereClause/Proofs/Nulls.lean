/-
WhereClause/Proofs/Nulls.lean

Membership in sets with nulls.  In SQL to compare with null is neither true nor false,
and neither `IN` nor `NOT IN` finds a null, so the tests of a column are given the truth
values of SQL here and the fragment for a membership test is judged by them.

Whatever the shape of the fragment, its truth is that of one comparison with each value
or, if there is a null among the members, of a test for null; under `NOT IN` it is the
negation.

Main results: the tests of a fragment have this truth (`ColumnTest.value?_tokens`), and so
membership is true of the members, unknown of null only, and negated by `NOT IN`
(`Compiler.isJudged_membership`).
-/
import WhereClause.Proofs.Meaning
import WhereClause.Proofs.Render.Found

namespace WhereClause

open Render

/-! ### Truth -/

/-- What is known is true or false. -/
def Truth.ofBool : Bool → Truth
  | .false => .false
  | .true => .true

theorem Truth.ofBool_eq_true_iff {b : Bool} : ofBool b = .true ↔ b = .true := by
  cases b <;> decide

theorem Truth.ofBool_ne_unknown (b : Bool) : ofBool b ≠ .unknown := by
  cases b <;> decide

namespace Truth

@[simp] theorem or_false (t : Truth) : t.or .false = t := by
  cases t <;> rfl

@[simp] theorem or_true (t : Truth) : t.or .true = .true := by
  cases t <;> rfl

/-- Negation turns a disjunction into a conjunction, unknown included. -/
theorem not_or (a b : Truth) : (a.or b).not = a.not.and b.not := by
  cases a <;> cases b <;> rfl

/-- A truth value is known when it is known whether it is true and whether it is unknown. -/
theorem eq_of_iff {a b : Truth} (htrue : a = .true ↔ b = .true)
    (hunknown : a = .unknown ↔ b = .unknown) : a = b := by
  cases a <;> cases b <;> simp at htrue hunknown ⊢

end Truth

/-- A negative test is judged by the negation. -/
def Polarity.judge : Polarity → Truth → Truth
  | .positive, t => t
  | .negative, t => t.not

/-! ### Tests of a column -/

/-- The tests of a column that a membership test is made of, with their placeholders. -/
inductive ColumnTest where
  | never
  | equal (placeholder : String)
  | differs (placeholder : String)
  | among (placeholders : List String)
  | notAmong (placeholders : List String)
  | isNull
  | isNotNull

namespace ColumnTest

/-- How a test is written. -/
def text (column : String) : ColumnTest → String
  | never => "0=1"
  | equal p => column ++ " = " ++ p
  | differs p => column ++ " <> " ++ p
  | among ps => column ++ " IN " ++ parenthesized (", ".intercalate ps)
  | notAmong ps => column ++ " NOT IN " ++ parenthesized (", ".intercalate ps)
  | isNull => column ++ " IS NULL"
  | isNotNull => column ++ " IS NOT NULL"

/-- The placeholders in a test, from left to right. -/
def placeholders : ColumnTest → List String
  | never | isNull | isNotNull => []
  | equal p | differs p => [p]
  | among ps | notAmong ps => ps

variable {X : Type}

/-- Nothing can be said of null. -/
def compare (equals : X → Value → Bool) : Option X → Option Value → Truth
  | some x, some v => .ofBool (equals x v)
  | _, _ => .unknown

/-- A comparison with one value or another. -/
def compareAny (equals : X → Value → Bool) (x : Option X) (vs : List (Option Value)) : Truth :=
  vs.foldr (fun v t => (compare equals x v).or t) .false

/-- The truth of a test where the column has the value `x`, which may be null. -/
def truth (equals : X → Value → Bool) (sink : Sink) (x : Option X) : ColumnTest → Truth
  | never => .false
  | equal p => compare equals x (sink.valueOf? p)
  | differs p => (compare equals x (sink.valueOf? p)).not
  | among ps => compareAny equals x (ps.map sink.valueOf?)
  | notAmong ps => (compareAny equals x (ps.map sink.valueOf?)).not
  | isNull => .ofBool x.isNone
  | isNotNull => (Truth.ofBool x.isNone).not

/-- The truth of a fragment; there is no constraint in an empty one. -/
def value? (equals : X → Value → Bool) (sink : Sink) (x : Option X) :
    List (Token ColumnTest) → Option Truth
  | [] => some .true
  | tokens => Token.value? (truth equals sink x) tokens

/-! ### The tests of a fragment -/

/-- The test against the members that are written, if there are any. -/
def ofList? : Polarity → List String → Option ColumnTest
  | _, [] => none
  | .positive, [p] => some (.equal p)
  | .negative, [p] => some (.differs p)
  | .positive, ps => some (.among ps)
  | .negative, ps => some (.notAmong ps)

/-- The test for null in either polarity. -/
def ofNull : Polarity → ColumnTest
  | .positive => .isNull
  | .negative => .isNotNull

/-- Against no members a positive test is false, and a negative one asks for nothing. -/
def ofNothing : Polarity → List (Token ColumnTest)
  | .positive => [.test .never]
  | .negative => []

/-- The fragment against members as they are written, in tests and connectives. -/
def tokens (polarity : Polarity) (members : List (Option String)) : List (Token ColumnTest) :=
  match ofList? polarity (members.filterMap id), members.any Option.isNone with
  | none, false => ofNothing polarity
  | none, true => [.test (ofNull polarity)]
  | some t, false => [.test t]
  | some t, true =>
    [.opening, .test t, .junction (Membership.nullJunction polarity), .test (ofNull polarity),
      .closing]

/-- What is written for members that are not null is the text of their test. -/
theorem listTest_eq (column : String) (polarity : Polarity) (ps : List String) :
    Membership.listTest column polarity ps = (ofList? polarity ps).map (text column) := by
  match ps with
  | [] => cases polarity <;> rfl
  | [p] => cases polarity <;> rfl
  | p :: p' :: ps =>
    cases polarity <;>
      simp only [Membership.listTest, ofList?, Option.map_some, text, Polarity.apply,
        String.append_assoc, Option.some_inj, String.append_right_inj] <;> rfl

/-- **The text of a test is the text of its tokens**, with null among its members or without. -/
theorem spellAll_tokens (column : String) (polarity : Polarity)
    (members : List (Option String)) :
    Token.spellAll (text column) (tokens polarity members) =
      Membership.test column polarity members := by
  have hnull : text column (ofNull polarity) = Membership.nullTest column polarity := by
    cases polarity <;> rfl
  rw [tokens, Membership.test, listTest_eq, ← hnull]
  -- Four ways: there are members that are not null or not, and there is a null or not.
  cases ofList? polarity (members.filterMap id) with
  | none =>
    cases members.any Option.isNone with
    | false => cases polarity <;> rfl
    | true => simp [Token.spellAll, Token.spell]
  | some t =>
    cases members.any Option.isNone with
    | false => simp [Token.spellAll, Token.spell]
    | true =>
      cases polarity <;>
        simp [Token.spellAll, Token.spell, Membership.nullJunction, Junction.text,
          Membership.withNullTest, parenthesized, String.append_assoc]

/-- The test against members has their placeholders, in their order. -/
theorem placeholders_ofList? {polarity : Polarity} {ps : List String} {t : ColumnTest}
    (h : ofList? polarity ps = some t) : t.placeholders = ps := by
  match ps with
  | [] => cases polarity <;> cases h
  | [p] => cases polarity <;> cases h <;> rfl
  | p :: p' :: ps => cases polarity <;> cases h <;> rfl

/-- The fragment has no other placeholders than its members. -/
theorem mem_of_mem_tokens {polarity : Polarity} {members : List (Option String)}
    {test : ColumnTest} (htest : .test test ∈ tokens polarity members) {p : String}
    (hp : p ∈ test.placeholders) : some p ∈ members := by
  have hnull : (ofNull polarity).placeholders = [] := by cases polarity <;> rfl
  have hnothing : ∀ t, .test t ∈ ofNothing polarity → t.placeholders = [] := by
    cases polarity <;> simp [ofNothing, placeholders]
  have hmem : ∀ t, ofList? polarity (members.filterMap id) = some t → p ∈ t.placeholders →
      some p ∈ members := by
    intro t ht hp
    rw [placeholders_ofList? ht] at hp
    simpa using hp
  -- The test for null has no placeholder, so the other test is the one that matters.
  rw [tokens] at htest
  cases ht : ofList? polarity (members.filterMap id) <;>
    cases hany : members.any Option.isNone <;> rw [ht, hany] at htest
  case none.false => exact absurd hp (by simp [hnothing test htest])
  case none.true =>
    obtain rfl : test = ofNull polarity := by simpa using htest
    exact absurd hp (by simp [hnull])
  case some.false t =>
    obtain rfl : test = t := by simpa using htest
    exact hmem test ht hp
  case some.true t =>
    obtain rfl | rfl : test = t ∨ test = ofNull polarity := by simpa using htest
    · exact hmem test ht hp
    · exact absurd hp (by simp [hnull])

/-! ### The truth of a fragment -/

section

variable {equals : X → Value → Bool} {sink : Sink} {x : Option X}

/-- Whether `x` is one of some values, null being found by its own test. -/
def membership (equals : X → Value → Bool) (x : Option X) (values : List (Option Value)) : Truth :=
  (compareAny equals x ((values.filterMap id).map some)).or
    (if values.any Option.isNone then .ofBool x.isNone else .false)

/-- The test against members is true of what equals one of them, and unknown of null. -/
theorem truth_ofList? {polarity : Polarity} {ps : List String} {t : ColumnTest}
    (h : ofList? polarity ps = some t) :
    t.truth equals sink x = polarity.judge (compareAny equals x (ps.map sink.valueOf?)) := by
  match ps with
  | [] => cases polarity <;> cases h
  | [p] =>
    -- A list of one is written as a comparison, which is the disjunction of one.
    have hsingle : compareAny equals x ([p].map sink.valueOf?) =
      compare equals x (sink.valueOf? p) := Truth.or_false _
    rw [hsingle]
    cases polarity <;> cases h <;> rfl
  | p :: p' :: ps => cases polarity <;> cases h <;> rfl

/-- There is a test as soon as there is a member. -/
theorem ofList?_eq_none {polarity : Polarity} {ps : List String} (h : ofList? polarity ps = none) :
    ps = [] := by
  match ps with
  | [] => rfl
  | [p] => cases polarity <;> cases h
  | p :: p' :: ps => cases polarity <;> cases h

/-- Members that are written stand for values. -/
theorem map_valueOf? {members : List (Option String)} {values : List (Option Value)}
    (h : List.Forall₂ (Option.Rel fun p v => sink.valueOf? p = some v) members values) :
    (members.filterMap id).map sink.valueOf? = (values.filterMap id).map some ∧
      members.any Option.isNone = values.any Option.isNone := by
  induction h with
  | nil => exact ⟨rfl, rfl⟩
  | cons hpv _ ih =>
    obtain ⟨ihvalues, ihany⟩ := ih
    cases hpv with
    | none => exact ⟨ihvalues, rfl⟩
    | @some p v hpv =>
      refine ⟨?_, ihany⟩
      show sink.valueOf? p :: _ = some v :: _
      rw [hpv, ihvalues]

/-- **The fragment for some members** has the truth of membership among their values, or
of the contrary. -/
theorem value?_tokens {members : List (Option String)} {values : List (Option Value)}
    (h : List.Forall₂ (Option.Rel fun p v => sink.valueOf? p = some v) members values)
    (polarity : Polarity) :
    value? equals sink x (tokens polarity members) =
      some (polarity.judge (membership equals x values)) := by
  obtain ⟨hvalues, hany⟩ := map_valueOf? h
  rw [tokens, membership, ← hvalues, ← hany]
  cases ht : ofList? polarity (members.filterMap id) with
  | none =>
    rw [ofList?_eq_none ht]
    cases members.any Option.isNone <;> cases polarity <;> rfl
  | some t =>
    have htruth : t.truth equals sink x = _ := truth_ofList? ht
    cases members.any Option.isNone with
    | false =>
      show some (t.truth equals sink x) = _
      rw [htruth, if_neg (by decide), Truth.or_false]
    | true =>
      rw [if_pos rfl]
      cases polarity with
      | positive =>
        show some ((t.truth equals sink x).or (.ofBool x.isNone)) = _
        rw [htruth]
        rfl
      | negative =>
        -- Neither among the values nor null: the negation of a disjunction.
        show some ((t.truth equals sink x).and (Truth.ofBool x.isNone).not) = _
        rw [htruth]
        exact congrArg some (Truth.not_or _ _).symm

/-! ### Membership -/

/-- Null compared with something is unknown, and with nothing it is false. -/
theorem compareAny_none (vs : List (Option Value)) :
    compareAny equals none vs = if vs = [] then .false else .unknown := by
  induction vs with
  | nil => rfl
  | cons v vs ih =>
    -- One comparison with null suffices: the others are not true either.
    show Truth.unknown.or (compareAny equals none vs) = .unknown
    rw [ih]
    split <;> rfl

/-- Where neither side is null the comparison is known. -/
theorem compareAny_some (y : X) (vs : List Value) :
    compareAny equals (some y) (vs.map some) = .ofBool (vs.any (equals y)) := by
  induction vs with
  | nil => rfl
  | cons v vs ih =>
    show (Truth.ofBool (equals y v)).or (compareAny equals (some y) (vs.map some)) = _
    rw [ih, List.any_cons]
    cases equals y v <;> rfl

/-- Null is found by the test for it, and by no comparison. -/
theorem membership_none_cases (equals : X → Value → Bool) (values : List (Option Value)) :
    (none ∈ values ∧ membership equals none values = .true) ∨
      (values = [] ∧ membership equals none values = .false) ∨
      none ∉ values ∧ values ≠ [] ∧ membership equals none values = .unknown := by
  -- Comparisons with null are unknown, so only the test for null can find it.
  by_cases h : none ∈ values
  · have hany : values.any Option.isNone = true := List.any_eq_true.2 ⟨none, h, rfl⟩
    rw [membership, if_pos hany]
    exact .inl ⟨h, Truth.or_true _⟩
  · have hany : ¬ values.any Option.isNone = true := fun hany => by
      obtain ⟨v, hv, hnone⟩ := List.any_eq_true.1 hany
      exact h (Option.isNone_iff_eq_none.1 hnone ▸ hv)
    rw [membership, if_neg hany, compareAny_none, Truth.or_false]
    cases values with
    | nil => exact .inr (.inl ⟨rfl, rfl⟩)
    | cons v vs =>
      cases v with
      | none => exact absurd List.mem_cons_self h
      | some v => exact .inr (.inr ⟨h, List.cons_ne_nil _ _, rfl⟩)

/-- What is not null is found by comparisons alone. -/
theorem membership_some (y : X) (values : List (Option Value)) :
    membership equals (some y) values = .ofBool ((values.filterMap id).any (equals y)) := by
  have hnull : (if values.any Option.isNone then Truth.ofBool (some y).isNone else .false) =
      .false := ite_self _
  rw [membership, compareAny_some, hnull, Truth.or_false]

/-- A membership holds of null if null is a member, and of all else if it equals one. -/
theorem membership_eq_true_iff {values : List (Option Value)} :
    membership equals x values = .true ↔
      (x = none ∧ none ∈ values) ∨ ∃ y v, x = some y ∧ some v ∈ values ∧ equals y v = true := by
  cases x with
  | none =>
    obtain ⟨h, htruth⟩ | ⟨rfl, htruth⟩ | ⟨h, -, htruth⟩ := membership_none_cases equals values
    · simp [htruth, h]
    · simp [htruth]
    · simp [htruth, h]
  | some y =>
    rw [membership_some, Truth.ofBool_eq_true_iff, List.any_eq_true]
    simp [List.mem_filterMap]

/-- What is unknown is null among members without null. All else is known. -/
theorem membership_eq_unknown_iff {values : List (Option Value)} :
    membership equals x values = .unknown ↔ x = none ∧ none ∉ values ∧ values ≠ [] := by
  cases x with
  | none =>
    obtain ⟨h, htruth⟩ | ⟨rfl, htruth⟩ | ⟨h, hne, htruth⟩ := membership_none_cases equals values
    · simp [htruth, h]
    · simp [htruth]
    · simp [htruth, h, hne]
  | some y =>
    rw [membership_some]
    exact iff_of_false (Truth.ofBool_ne_unknown _) (by simp)

/-- Neither the order of the members nor how often each comes matters. -/
theorem membership_congr {values values' : List (Option Value)}
    (h : ∀ v, v ∈ values' ↔ v ∈ values) :
    membership equals x values' = membership equals x values := by
  -- Whether there are members at all is a matter of membership, too.
  have hne : values' ≠ [] ↔ values ≠ [] := by
    simp only [ne_eq, List.eq_nil_iff_forall_not_mem, h]
  refine Truth.eq_of_iff ?_ ?_
  · simp only [membership_eq_true_iff, h]
  · simp only [membership_eq_unknown_iff, h, hne]

end

end ColumnTest

/-! ### Members -/

namespace Membership

variable {S : Type}

/-- The value of a member, if it is not null; a row stands for its entry. -/
inductive Denotes (column : PlainColumn) : Operand S → Option Value → Prop
  | null : Denotes column (.scalar .null) none
  | value (v : Value) : Denotes column (.scalar (.value v)) (some v)
  | absent {es : List (String × Operand S)} (h : es.lookup column.key = none) :
    Denotes column (.row es) none
  | entryNull {es : List (String × Operand S)}
    (h : es.lookup column.key = some (.scalar .null)) : Denotes column (.row es) none
  | entryValue {es : List (String × Operand S)} {v : Value}
    (h : es.lookup column.key = some (.scalar (.value v))) : Denotes column (.row es) (some v)

/-- A member that stands for a value is bound, and one that stands for null is not written. -/
theorem renderMember_of_denotes {d : Dialect} {operator : String} {column : PlainColumn}
    (f : S → Render String) {m : Operand S} {v : Option Value} (h : Denotes column m v) :
    renderMember d operator (entryUnder column (m.map f)) = d.bindNullable v := by
  rw [entryUnder_map]
  -- By what the member stands for; a null is no text, and binds nothing.
  cases h with
  | null =>
    show renderMember d operator (some ((Operand.scalar .null).map f)) = _
    rw [Operand.map_scalar]
    rfl
  | value v =>
    show renderMember d operator (some ((Operand.scalar (.value v)).map f)) = _
    rw [Operand.map_scalar]
    rfl
  | absent h =>
    rw [entryUnder, h]
    rfl
  | entryNull h =>
    rw [entryUnder, h, Option.map_some, Operand.map_scalar]
    rfl
  | entryValue h =>
    rw [entryUnder, h, Option.map_some, Operand.map_scalar]
    rfl

/-- Also with no members the test of one column is written as one. -/
theorem render_one (d : Dialect) (column : PlainColumn) (polarity : Polarity)
    (members : List (Operand (Render String))) :
    render d [column] polarity (.members members) = renderSingle d column polarity members := by
  cases members with
  | nil => rfl
  | cons m ms => rfl

end Membership

/-! ### The fragment -/

namespace Compiler

variable {c : Compiler} {column : PlainColumn} {members : List (Operand Spec)}
  {values : List (Option Value)}

/-- A test of one column is built of tests that find the values of the members in the
sink. -/
theorem exists_build_tokens (h : List.Forall₂ (Membership.Denotes column) members values)
    (polarity : Polarity) (sink : Sink) :
    ∃ written sink',
      c.build (.membership [column] polarity (.members members)) sink =
        (.ok (Token.spellAll (ColumnTest.text (column.text c.dialect))
          (ColumnTest.tokens polarity written)), sink') ∧
      List.Forall₂ (Option.Rel fun p v => sink'.valueOf? p = some v) written values := by
  obtain ⟨written, sink', hrun, -, hfound⟩ := c.dialect.mapM_bindNullable values sink
  refine ⟨written, sink', ?_, hfound⟩
  -- Members that denote the same values are written in the same run.
  have hmembers : (members.map (Operand.map (Spec.compile c))).mapM (fun m =>
      Membership.renderMember c.dialect (polarity.apply "IN") (Membership.entryUnder column m)) =
        values.mapM c.dialect.bindNullable := by
    rw [List.mapM_map]
    exact mapM_congr_forall₂ (h.imp fun m v hm => Membership.renderMember_of_denotes _ hm)
  rw [build, Condition.map_membership, Candidates.map_members, ColumnTest.spellAll_tokens]
  show Membership.render c.dialect [column] polarity (.members _) sink = _
  rw [Membership.render_one, Membership.renderSingle, hmembers]
  exact bind_eq_ok.2 ⟨written, sink', hrun, rfl⟩

/-- The fragment for some members is made of tests of the column, each placeholder of
which has a value; and it has the given truth for each value of the column, null being
`none`. -/
def IsJudged {X : Type} (c : Compiler) (column : PlainColumn) (polarity : Polarity)
    (members : List (Operand Spec)) (sink : Sink) (equals : X → Value → Bool)
    (truth : Option X → Truth) : Prop :=
  ∃ tokens sink',
    c.build (.membership [column] polarity (.members members)) sink =
      (.ok (Token.spellAll (ColumnTest.text (column.text c.dialect)) tokens), sink') ∧
    (∀ test : ColumnTest, .test test ∈ tokens → ∀ p ∈ test.placeholders,
      ∃ v, sink'.valueOf? p = some v) ∧
    ∀ x, ColumnTest.value? equals sink' x tokens = some (truth x)

/-- What a compiled test is true of, whatever the members stand for. The members are written one
by one, each with the value that it denotes. -/
theorem isJudged_of_denotes {X : Type}
    (h : List.Forall₂ (Membership.Denotes column) members values) (polarity : Polarity)
    (sink : Sink) (equals : X → Value → Bool) :
    c.IsJudged column polarity members sink equals fun x =>
      polarity.judge (ColumnTest.membership equals x values) := by
  obtain ⟨written, sink', hbuild, hfound⟩ := exists_build_tokens (c := c) h polarity sink
  refine ⟨_, sink', hbuild, fun test htest p hp => ?_, fun x =>
    ColumnTest.value?_tokens hfound polarity⟩
  obtain ⟨v, -, hv⟩ := exists_of_mem_left hfound (ColumnTest.mem_of_mem_tokens htest hp)
  cases hv with
  | some hv => exact ⟨_, hv⟩

/-- **Membership has the truth of SQL, and `NOT IN` negates it.**  The test is true of null
if there is a null among the members and of what equals one of the others, unknown of null
if there are members but no null, and false otherwise.  The test under `NOT IN` has the
negation of this truth, and both depend on no more than which values there are. -/
theorem isJudged_membership {X : Type} (c : Compiler) (column : PlainColumn)
    (members : List (Operand Spec)) (values : List (Option Value))
    (h : List.Forall₂ (Membership.Denotes column) members values) (equals : X → Value → Bool) :
    ∃ truth : Option X → Truth,
      (∀ x, truth x = .true ↔ (x = none ∧ none ∈ values) ∨
        ∃ y v, x = some y ∧ some v ∈ values ∧ equals y v = true) ∧
      (∀ x, truth x = .unknown ↔ x = none ∧ none ∉ values ∧ values ≠ []) ∧
      (∀ sink, c.IsJudged column .positive members sink equals truth ∧
        c.IsJudged column .negative members sink equals fun x => (truth x).not) ∧
      ∀ members' values', List.Forall₂ (Membership.Denotes column) members' values' →
        (∀ v, v ∈ values' ↔ v ∈ values) → ∀ sink,
          c.IsJudged column .positive members' sink equals truth ∧
          c.IsJudged column .negative members' sink equals fun x => (truth x).not := by
  refine ⟨fun x => ColumnTest.membership equals x values, fun x =>
    ColumnTest.membership_eq_true_iff, fun x => ColumnTest.membership_eq_unknown_iff,
    fun sink => ⟨isJudged_of_denotes h .positive sink equals,
      isJudged_of_denotes h .negative sink equals⟩, ?_⟩
  -- Other members have tests of their own, with the same truth if the values are the same.
  intro members' values' h' hsame sink
  have hjudged := fun polarity => isJudged_of_denotes (c := c) h' polarity sink equals
  simp only [ColumnTest.membership_congr hsame] at hjudged
  exact ⟨hjudged .positive, hjudged .negative⟩

/-- A value, a row without an entry for the column, and the value once more in a row. -/
theorem isJudged_membership_row :
    let c : Compiler := ⟨⟨.standard, QuoteStyle.bare.quoter⟩, .standard⟩
    let one : Operand Spec := .scalar (.value (.int 1))
    let members : List (Operand Spec) := [one, .row [("b", one)], .row [("a", one)]]
    ∃ truth : Option Value → Truth, truth none = .true ∧ truth (some (.int 1)) = .true ∧
      truth (some (.int 2)) ≠ .unknown ∧
      c.IsJudged (.name "a") .positive members .empty Value.same truth ∧
      c.IsJudged (.name "a") .negative members .empty Value.same fun x => (truth x).not := by
  intro c one members
  have hdenotes : List.Forall₂ (Membership.Denotes (.name "a")) members
      [some (.int 1), none, some (.int 1)] :=
    .cons (.value _) (.cons (.absent rfl) (.cons (.entryValue rfl) .nil))
  obtain ⟨truth, htrue, hunknown, hjudged, -⟩ :=
    isJudged_membership c (.name "a") members _ hdenotes Value.same
  refine ⟨truth, (htrue none).2 (.inl ⟨rfl, by simp⟩),
    (htrue _).2 (.inr ⟨_, .int 1, rfl, by simp, by decide⟩),
    fun h => absurd ((hunknown _).1 h).1 (by simp),
    hjudged .empty⟩

end Compiler

end WhereClause
