/-
WhereClause/Proofs/Session.lean

Sessions on one sink: insertions, single bindings and compilations in any order,
by several compilers with styles of their own.

A positional placeholder has to say at which place the driver finds its value.
It does so unless its number is taken, and then binding goes on to the next one.
What decides is which stems the named styles have: a stem that is itself the
numeral of a positive number makes numerals of its own, ahead of their places;
with any other stem no numeral in a sink exceeds the number of entries.

Main results: positional numbers are places in every session with stems from a
set exactly if no stem in the set is a numeral (`positional_iff_stems`), and
the invariant behind it (`Bounded.runAll`).
-/
import Mathlib.Data.Set.Basic
import WhereClause.Environment
import WhereClause.Proofs.Render.Binds

namespace WhereClause

/-! ### Stems from an environment -/

theorem PlaceholderStyle.stem_of_ofSettings {stem : Option String} {word : Option StyleWord}
    {p : String} (h : ofSettings stem word = .named p) : stem.getD "p" = p := by
  unfold ofSettings at h
  split at h
  · exact absurd h (by simp)
  · exact PlaceholderStyle.named.inj h
  · exact PlaceholderStyle.named.inj h

/-- The meaning of a setting comes from a value that the environment has. -/
theorem Environment.exists_of_setting {α : Type} {env : Environment} {s : Setting}
    {read : String → Option α} {a : α} (h : env.setting s read = .ok (some a)) :
    ∃ value, read value = some a := by
  rw [setting] at h
  split at h
  · exact absurd h (by simp)
  · next value _ =>
    cases hread : read value with
    | none => simp [hread] at h
    | some b =>
      rw [hread] at h
      obtain rfl : b = a := by simpa using h
      exact ⟨value, hread⟩

/-- Both alphabets and the underscore lie behind the digits. -/
theorem lt_toNat_of_isStemStart {c : Char} (h : isStemStart c = true) :
    '9'.toNat < c.toNat := by
  rw [isStemStart, Bool.or_eq_true] at h
  rcases h with halpha | hc
  · have hcases : (c.isUpper || c.isLower) = true := halpha
    rw [Bool.or_eq_true] at hcases
    rcases hcases with hupper | hlower
    · have hbounds : 'A'.val ≤ c.val ∧ c.val ≤ 'Z'.val := of_decide_eq_true hupper
      exact Nat.lt_of_lt_of_le (by decide) (UInt32.le_iff_toNat_le.1 hbounds.1)
    · have hbounds : (decide ('a'.val ≤ c.val) && decide (c.val ≤ 'z'.val)) = true := hlower
      rw [Bool.and_eq_true, decide_eq_true_eq] at hbounds
      exact Nat.lt_of_lt_of_le (by decide) (UInt32.le_iff_toNat_le.1 hbounds.1)
  · obtain rfl : c = '_' := of_decide_eq_true hc
    decide

theorem isDigit_eq_false_of_isStemStart {c : Char} (h : isStemStart c = true) :
    c.isDigit = false := by
  rw [Bool.eq_false_iff, ne_eq, Char.isDigit_iff_toNat]
  intro hdigit
  exact absurd hdigit.2 (Nat.not_le.2 (lt_toNat_of_isStemStart h))

theorem exists_not_isDigit_of_isStem {p : String} (h : isStem p = true) :
    ∃ c ∈ p.toList, c.isDigit = false := by
  rw [isStem] at h
  split at h
  · exact absurd h (by simp)
  · next c cs hp =>
    refine ⟨c, by rw [hp]; exact List.mem_cons_self, ?_⟩
    rw [Bool.and_eq_true] at h
    exact isDigit_eq_false_of_isStemStart h.1

theorem exists_not_isDigit_of_ofEnvironment {env : Environment} {o : Options}
    (h : Options.ofEnvironment env = .ok o) {p : String} (hp : o.placeholder = .named p) :
    ∃ c ∈ p.toList, c.isDigit = false := by
  obtain ⟨stem, hstem, h⟩ := Attempt.bind_eq_ok.1 h
  obtain ⟨style, -, h⟩ := Attempt.bind_eq_ok.1 h
  obtain ⟨quoteStyle, -, h⟩ := Attempt.bind_eq_ok.1 h
  obtain ⟨likeEscape, -, h⟩ := Attempt.bind_eq_ok.1 h
  obtain ⟨escapesLikeValues, -, h⟩ := Attempt.bind_eq_ok.1 h
  cases h
  -- The stem is the one that is set, which has been checked, or the default.
  obtain rfl : stem.getD "p" = p := PlaceholderStyle.stem_of_ofSettings hp
  cases stem with
  | none => exact ⟨'p', by decide, by decide⟩
  | some stem =>
    obtain ⟨value, hvalue⟩ := Environment.exists_of_setting hstem
    split at hvalue
    · next hisStem =>
      obtain rfl : value = stem := Option.some.inj hvalue
      exact exists_not_isDigit_of_isStem hisStem
    · exact absurd hvalue (by simp)

/-! ### Steps -/

/-- The positional style, or a named one with a stem from `P`. -/
def PlaceholderStyle.From (P : Set String) : PlaceholderStyle → Prop
  | .named stem => stem ∈ P
  | .positional => True

namespace Sink

/-- What a caller does to a sink. -/
inductive Step where
  | insert (name : String) (v : Value)
  | bind (style : PlaceholderStyle) (v : Value)
  | compile (c : Compiler) (s : Spec)

namespace Step

/-- The sink after a step; it is as before if an insertion is refused. -/
def run : Step → Sink → Sink
  | .insert name v, s =>
    match s.insert name v with
    | .ok (_, t) => t
    | .error _ => s
  | .bind style v, s => (s.bind style v).2
  | .compile c x, s => (c.compileInto x s).2

/-- The style in which a step binds. -/
def style? : Step → Option PlaceholderStyle
  | .insert _ _ => none
  | .bind style _ => some style
  | .compile c _ => some c.dialect.options.placeholder

/-- A step may insert under any name, and binds in styles from `P` only. -/
def Uses (P : Set String) (step : Step) : Prop := ∀ style ∈ step.style?, style.From P

/-- Positional placeholders that a step makes have the numbers of their places:
what binding answers, and the names under which compiling binds. -/
def Aligned (s : Sink) : Step → Prop
  | .bind .positional v => (s.bind .positional v).1 = "$" ++ (s.size + 1).repr
  | .compile c x => c.dialect.options.placeholder = .positional →
    ∀ i, s.size ≤ i → ∀ e ∈ (c.compileInto x s).2.entries[i]?, e.1 = (i + 1).repr
  | _ => True

theorem Uses.mono {P Q : Set String} {step : Step} (h : step.Uses P) (hPQ : ∀ p ∈ P, p ∈ Q) :
    step.Uses Q := by
  intro style hstyle
  have hfrom := h style hstyle
  cases style with
  | named stem => exact hPQ stem hfrom
  | positional => trivial

/-- A step with a style is a run of bindings in it. -/
theorem run_of_style {step : Step} {style : PlaceholderStyle} (h : step.style? = some style)
    (s : Sink) : ∃ vs, step.run s = s.bindAll style vs := by
  cases step with
  | insert name v => exact absurd h (by simp [style?])
  | bind style' v =>
    obtain rfl : style' = style := Option.some.inj h
    exact ⟨[v], rfl⟩
  | compile c x =>
    obtain rfl : c.dialect.options.placeholder = style := Option.some.inj h
    exact x.binds_compile c s

/-- A step without a style is an insertion, which is refused if the name is reserved. -/
theorem run_of_no_style {step : Step} (h : step.style? = none) (s : Sink) :
    step.run s = s ∨
      ∃ name v, isReserved name = false ∧ step.run s = ⟨Keyed.put name v s.entries⟩ := by
  cases step with
  | insert name v =>
    cases hname : isReserved name with
    | true => exact .inl (by simp [run, Sink.insert, hname])
    | false => exact .inr ⟨name, v, hname, by simp [run, Sink.insert, hname]⟩
  | bind style v => exact absurd h (by simp [style?])
  | compile c x => exact absurd h (by simp [style?])

/-- A step is a run of bindings in its style, or an insertion under a name that
is not reserved. -/
theorem run_cases (step : Step) (s : Sink) :
    (∃ style ∈ step.style?, ∃ vs, step.run s = s.bindAll style vs) ∨
      step.run s = s ∨
      ∃ name v, isReserved name = false ∧ step.run s = ⟨Keyed.put name v s.entries⟩ := by
  cases hstyle : step.style? with
  | none => exact .inr (run_of_no_style hstyle s)
  | some style => exact .inl ⟨style, rfl, run_of_style hstyle s⟩

end Step

/-- The sink after some steps, one after the other. -/
def runAll (steps : List Step) (s : Sink) : Sink := steps.foldl (fun s step => step.run s) s

theorem runAll_cons (step : Step) (steps : List Step) (s : Sink) :
    runAll (step :: steps) s = runAll steps (step.run s) :=
  rfl

/-! ### Numerals in a sink -/

/-- No numeral among the names exceeds the number of entries. -/
def Bounded (s : Sink) : Prop := ∀ m : Nat, m.repr ∈ s.names → m ≤ s.size

theorem bounded_empty : Bounded .empty := by
  intro m hm
  simp [names, empty] at hm

theorem Bounded.nextOrdinal_positional {s : Sink} (hs : s.Bounded) :
    s.nextOrdinal .positional = s.size := by
  refine nextOrdinal_eq_of_free (Nat.le_refl _) ?_ fun m hm hlt => absurd hm (Nat.not_le.2 hlt)
  intro htaken
  exact Nat.not_succ_le_self _ (hs (s.size + 1) htaken)

/-- The name of a new placeholder is at most the numeral of its place. -/
theorem Bounded.of_nextName {style : PlaceholderStyle} {s : Sink} {m : Nat} (hs : s.Bounded)
    (hstyle : style.From {p | ¬ IsNumeral p}) (h : s.nextName style = m.repr) :
    m ≤ s.size + 1 := by
  cases style with
  | positional =>
    have hm := Numeral.repr_injective h
    rw [hs.nextOrdinal_positional] at hm
    exact Nat.le_of_eq hm.symm
  | named stem =>
    obtain ⟨rfl, hm⟩ := eq_of_stem_append_repr hstyle h
    -- Without a stem names are bare numerals, of which the next one must be free.
    by_contra hlt
    have htaken : PlaceholderStyle.name (.named "") (s.size + 1) ∈ s.names :=
      not_free_of_lt_nextOrdinal (Nat.le_succ _) (by omega)
    rw [PlaceholderStyle.name, String.empty_append] at htaken
    exact Nat.not_succ_le_self _ (hs _ htaken)

theorem Bounded.bind {style : PlaceholderStyle} {s : Sink} (hs : s.Bounded)
    (hstyle : style.From {p | ¬ IsNumeral p}) (v : Value) : (s.bind style v).2.Bounded := by
  intro m hm
  rw [bind_eq, names_append, List.mem_append, List.mem_singleton] at hm
  rw [bind_eq, size_append]
  rcases hm with hm | hm
  · exact Nat.le_succ_of_le (hs m hm)
  · exact hs.of_nextName hstyle hm.symm

theorem Bounded.bindAll {style : PlaceholderStyle} {s : Sink} (hs : s.Bounded)
    (hstyle : style.From {p | ¬ IsNumeral p}) (vs : List Value) :
    (s.bindAll style vs).Bounded :=
  bindAll_induction style (fun _ v ht => ht.bind hstyle v) vs hs

theorem Bounded.put {s : Sink} (hs : s.Bounded) {name : String} (v : Value)
    (hname : isReserved name = false) : Bounded ⟨Keyed.put name v s.entries⟩ := by
  intro m hm
  have hkeys := Keyed.keys_put name v s.entries
  -- Writing keeps the entries or adds one at the end.
  have hsize : s.size ≤ (Keyed.put name v s.entries).length := by
    have hlen := congrArg List.length hkeys
    split at hlen <;> simp at hlen <;> rw [size] <;> omega
  refine Nat.le_trans (hs m ?_) hsize
  rw [names, hkeys] at hm
  split at hm
  · exact hm
  · rcases List.mem_append.1 hm with hm | hm
    · exact hm
    · -- The new name is no numeral, since those are reserved.
      rw [List.mem_singleton] at hm
      subst hm
      rw [isReserved, List.all_eq_false] at hname
      obtain ⟨c, hc, hdigit⟩ := hname
      exact absurd (Numeral.isDigit_of_mem_repr hc) hdigit

theorem Bounded.run {step : Step} {s : Sink} (hs : s.Bounded)
    (hstep : step.Uses {p | ¬ IsNumeral p}) : (step.run s).Bounded := by
  -- A step binds in its style, does nothing, or writes under a name that is not reserved.
  rcases step.run_cases s with ⟨style, hstyle, vs, hrun⟩ | hrun | ⟨name, v, hname, hrun⟩
  · rw [hrun]
    exact hs.bindAll (hstep style hstyle) vs
  · rw [hrun]
    exact hs
  · rw [hrun]
    exact hs.put v hname

/-- With stems that are no numerals, every session keeps the numerals bounded. -/
theorem Bounded.runAll {steps : List Step} {s : Sink} (hs : s.Bounded)
    (hsteps : ∀ step ∈ steps, step.Uses {p | ¬ IsNumeral p}) : (runAll steps s).Bounded := by
  induction steps generalizing s with
  | nil => exact hs
  | cons step steps ih =>
    rw [runAll_cons]
    exact ih (hs.run (hsteps step (by simp))) fun t ht => hsteps t (by simp [ht])

/-! ### Numbers are places -/

/-- What a run of positional bindings adds is named after its places. -/
theorem Bounded.name_eq_of_bindAll {s : Sink} (hs : s.Bounded) (vs : List Value) {i : Nat}
    (hi : s.size ≤ i) {e : String × Value}
    (he : (s.bindAll .positional vs).entries[i]? = some e) : e.1 = (i + 1).repr := by
  -- The invariant says of all entries from the size of the sink on what is asked of one.
  have hrun := bindAll_induction .positional
    (P := fun t => t.Bounded ∧ ∀ i, s.size ≤ i → ∀ e, t.entries[i]? = some e → e.1 = (i + 1).repr)
    ?_ vs ⟨hs, ?_⟩
  · exact hrun.2 i hi e he
  · rintro t v ⟨ht, hnames⟩
    have hpositional : PlaceholderStyle.From {p | ¬ IsNumeral p} .positional := trivial
    refine ⟨ht.bind hpositional v, fun i hi e he => ?_⟩
    rw [bind_eq, entries_append, List.getElem?_append] at he
    split at he
    · exact hnames i hi e he
    · -- The last entry, whose number is the size.
      have hzero : i - t.entries.length = 0 := by
        by_contra hne
        rw [List.getElem?_singleton, if_neg hne] at he
        exact absurd he (by simp)
      have hsize : i = t.size := by
        rw [size]
        omega
      rw [hzero] at he
      obtain rfl : (t.nextName .positional, v) = e := by simpa using he
      rw [hsize, nextName, ht.nextOrdinal_positional]
      rfl
  · intro i hi e he
    rw [List.getElem?_eq_none (by rw [size] at hi; exact hi)] at he
    exact absurd he (by simp)

theorem Bounded.aligned {step : Step} {s : Sink} (hs : s.Bounded) : step.Aligned s := by
  cases step with
  | insert name v => trivial
  | bind style v =>
    cases style with
    | named stem => trivial
    | positional =>
      show "$" ++ s.nextName .positional = "$" ++ (s.size + 1).repr
      rw [nextName, hs.nextOrdinal_positional]
      rfl
  | compile c x =>
    -- Compiling binds some values in its style, and which these are does not matter.
    intro hstyle i hi e he
    obtain ⟨vs, hvs⟩ := (Step.compile c x).run_of_style (congrArg some hstyle) s
    rw [Step.run] at hvs
    rw [hvs] at he
    exact hs.name_eq_of_bindAll vs hi he

/-! ### What is bound stays -/

/-- The step is an insertion under `name` that is not refused. -/
def Step.Inserts (name : String) : Step → Prop
  | .insert n _ => n = name ∧ isReserved name = false
  | _ => False

/-- What is there before a binding or a compilation is there, in its place, afterwards. -/
theorem prefix_run_of_style {step : Step} {style : PlaceholderStyle}
    (h : step.style? = some style) (s : Sink) : s.entries <+: (step.run s).entries := by
  obtain ⟨vs, hvs⟩ := step.run_of_style h s
  rw [hvs]
  exact s.prefix_bindAll style vs

/-- An entry stays where it is, with its value, unless the step names it. -/
theorem getElem?_run {step : Step} {s : Sink} {i : Nat} {e : String × Value}
    (h : s.entries[i]? = some e) (hstep : ¬ step.Inserts e.1) :
    (step.run s).entries[i]? = some e := by
  cases hstyle : step.style? with
  | some style =>
    obtain ⟨new, hnew⟩ := prefix_run_of_style hstyle s
    rw [← hnew, List.getElem?_append_left (List.getElem?_eq_some_iff.1 h).1]
    exact h
  | none =>
    cases step with
    | insert name v =>
      rw [Step.run, Sink.insert]
      cases hname : isReserved name with
      | true => exact h
      | false =>
        -- What is inserted has another name.
        refine Keyed.getElem?_put h ?_
        rintro rfl
        exact hstep ⟨rfl, hname⟩
    | bind style v => exact absurd hstyle (by simp [Step.style?])
    | compile c x => exact absurd hstyle (by simp [Step.style?])

theorem getElem?_runAll {steps : List Step} {s : Sink} {i : Nat} {e : String × Value}
    (h : s.entries[i]? = some e) (hsteps : ∀ step ∈ steps, ¬ step.Inserts e.1) :
    (runAll steps s).entries[i]? = some e := by
  induction steps generalizing s with
  | nil => exact h
  | cons step steps ih =>
    exact ih (getElem?_run h (hsteps step (by simp))) fun t ht => hsteps t (by simp [ht])

/-- Nothing is inserted under a reserved name. -/
theorem Step.not_inserts_of_isReserved {name : String} (h : isReserved name = true)
    (step : Step) : ¬ step.Inserts name := by
  cases step with
  | insert n v =>
    rintro ⟨-, hname⟩
    rw [h] at hname
    exact absurd hname (by simp)
  | bind style v => exact id
  | compile c x => exact id

/-! ### Stems that are numerals -/

/-- A stem that is a numeral makes the numeral of a place that is still to come;
once the sink has grown up to it, a positional placeholder has to pass it over. -/
theorem exists_not_aligned {P : Set String} {n : Nat} (hn : 0 < n) (hP : n.repr ∈ P) (v : Value) :
    ∃ steps : List Step, (∀ step ∈ steps, step.Uses P) ∧
      ¬ (Step.bind .positional v).Aligned (runAll steps .empty) := by
  -- The first name is the stem with a zero behind it, which is ten times the number;
  -- the bindings after it fill the sink up to the place of that name.
  let vs := List.replicate (10 * n - 2) v
  let s := (empty.bind (.named n.repr) v).2
  have hsize : (s.bindAll .positional vs).size = 10 * n - 1 := by
    rw [size_bindAll, List.length_replicate]
    show 1 + (10 * n - 2) = 10 * n - 1
    omega
  have htaken : (10 * n).repr ∈ (s.bindAll .positional vs).names := by
    have hfirst : (10 * n).repr ∈ s.names := by
      have hnames : s.names = [n.repr ++ (0 : Nat).repr] := rfl
      rw [hnames, Numeral.repr_ten_mul hn, Nat.repr_of_lt (by decide : 0 < 10)]
      exact List.mem_singleton.2 rfl
    exact ((s.prefix_bindAll .positional vs).map (·.1)).subset hfirst
  refine ⟨.bind (.named n.repr) v :: vs.map (.bind .positional), ?_, ?_⟩
  · intro step hstep
    rcases List.mem_cons.1 hstep with rfl | hstep
    · rintro style ⟨rfl⟩
      exact hP
    · obtain ⟨w, -, rfl⟩ := List.mem_map.1 hstep
      rintro style ⟨rfl⟩
      trivial
  · intro haligned
    -- The next placeholder would have the name that is taken.
    have hrun : runAll (.bind (.named n.repr) v :: vs.map (.bind .positional)) .empty =
        s.bindAll .positional vs := List.foldl_map
    rw [hrun] at haligned
    have htext : "$" ++ (s.bindAll .positional vs).nextName .positional =
        "$" ++ ((s.bindAll .positional vs).size + 1).repr := haligned
    rw [hsize, Nat.sub_add_cancel (by omega)] at htext
    have hname : (s.bindAll .positional vs).nextName .positional = (10 * n).repr :=
      String.append_right_inj _ |>.1 htext
    rw [← hname] at htaken
    exact nextName_notMem _ _ htaken

/-! ### The condition on the stems -/

/-- In every session with stems from `P`, whatever it does next is aligned. -/
def IsPositional (P : Set String) : Prop :=
  ∀ steps : List Step, (∀ step ∈ steps, step.Uses P) →
    ∀ step : Step, step.Uses P → step.Aligned (runAll steps .empty)

theorem isPositional_iff {P : Set String} : IsPositional P ↔ ∀ p ∈ P, ¬ IsNumeral p := by
  constructor
  · intro hP p hp hnumeral
    obtain ⟨n, hn, rfl⟩ := isNumeral_iff.1 hnumeral
    obtain ⟨steps, hsteps, hmiss⟩ := exists_not_aligned hn hp (.bool true)
    refine hmiss (hP steps hsteps _ ?_)
    rintro style ⟨rfl⟩
    trivial
  · intro hP steps hsteps step _
    exact (bounded_empty.runAll fun t ht => (hsteps t ht).mono hP).aligned

/-- A positional placeholder stays that of its value, whatever the session does later. -/
theorem values_getElem?_of_positional {P : Set String} (hP : ∀ p ∈ P, ¬ IsNumeral p)
    {before : List Step} {step : Step} (hbefore : ∀ t ∈ before, t.Uses P)
    (hstep : step.style? = some .positional) {i : Nat} (hi : (runAll before .empty).size ≤ i)
    {e : String × Value} (he : (step.run (runAll before .empty)).entries[i]? = some e)
    (later : List Step) :
    e.1 = (i + 1).repr ∧
      (runAll later (step.run (runAll before .empty))).values[i]? = some e.2 := by
  have hs : (runAll before .empty).Bounded :=
    bounded_empty.runAll fun t ht => (hbefore t ht).mono hP
  have hname : e.1 = (i + 1).repr := by
    obtain ⟨vs, hvs⟩ := step.run_of_style hstep (runAll before .empty)
    rw [hvs] at he
    exact hs.name_eq_of_bindAll vs hi he
  refine ⟨hname, ?_⟩
  -- A numeral is reserved, so that no later insertion writes under it.
  have hreserved : isReserved e.1 = true := by
    rw [hname, isReserved, List.all_eq_true]
    exact fun c hc => Numeral.isDigit_of_mem_repr hc
  rw [values, List.getElem?_map,
    getElem?_runAll he fun step _ => step.not_inserts_of_isReserved hreserved]
  rfl

/-- **Positional numbers are places** in every session with stems from `P` exactly
if no stem in `P` is a numeral; then the value of `$k` is the `k`-th one for good.
It is enough that each stem has a character that is no digit, as it does if it comes
from an environment. -/
theorem positional_iff_stems (P : Set String) :
    (IsPositional P ↔ ∀ p ∈ P, ¬ IsNumeral p) ∧
      (IsPositional P → ∀ (before later : List Step) (step : Step),
        (∀ t ∈ before, t.Uses P) → step.style? = some .positional →
        ∀ i, (runAll before .empty).size ≤ i →
        ∀ e ∈ (step.run (runAll before .empty)).entries[i]?,
          e.1 = (i + 1).repr ∧
            (runAll later (step.run (runAll before .empty))).values[i]? = some e.2) ∧
      ((∀ p ∈ P, ∃ c ∈ p.toList, c.isDigit = false) → IsPositional P) ∧
      ∀ (env : Environment) (o : Options) (p : String), Options.ofEnvironment env = .ok o →
        o.placeholder = .named p → ∃ c ∈ p.toList, c.isDigit = false := by
  refine ⟨isPositional_iff, ?_, ?_, fun _ _ _ h hp => exists_not_isDigit_of_ofEnvironment h hp⟩
  · intro hP before later step hbefore hstep i hi e he
    exact values_getElem?_of_positional (isPositional_iff.1 hP) hbefore hstep hi he later
  · intro hP
    refine isPositional_iff.2 fun p hp hnumeral => ?_
    obtain ⟨c, hc, hdigit⟩ := hP p hp
    rw [hnumeral.2.1 c hc] at hdigit
    exact absurd hdigit (by simp)

end Sink

end WhereClause
