/-
WhereClause/Proofs/AppendOnly.lean

A sink as its users see it.  Binding and compiling write at its end, also where compiling
fails half way, and also with readers and queries of a caller's own; an insertion writes
under one name, at the end or in place.  So a placeholder that was handed out once stands
for its value, by name and by position, until somebody inserts under its very name.

A session is a relation here, since with readers of any kind compiling need not come to an
end; a session goes on after a compilation just if it does.  What holds of one step is
read off the three things that a step can do (`Open.Step.Leads.cases`), and what holds of a
session follows step by step.

Main results: no session makes two names equal (`Open.Session.nodup_names`), an insertion
that is accepted appends or replaces (`Sink.insert_cases`), and all of it together for the
sink of any session (`Open.Session.isAppendOnly`).
-/
import WhereClause.Proofs.Open.Binds

namespace WhereClause

namespace Sink

/-! ### Distinct names -/

/-- The name that binding picks is a new one. -/
theorem nodup_names_bind {s : Sink} (h : s.names.Nodup) (style : PlaceholderStyle) (v : Value) :
    (s.bind style v).2.names.Nodup := by
  rw [bind_eq, names_append, List.nodup_append]
  refine ⟨h, by simp, fun n hn m hm hnm => ?_⟩
  obtain rfl : m = s.nextName style := List.mem_singleton.1 hm
  subst hnm
  exact s.nextName_notMem style hn

theorem nodup_names_bindAll {s : Sink} (h : s.names.Nodup) (style : PlaceholderStyle)
    (vs : List Value) : (s.bindAll style vs).names.Nodup :=
  bindAll_induction (P := fun t => t.names.Nodup) style
    (fun _ v ht => nodup_names_bind ht style v) vs h

/-- By position and by name the same entry is found. -/
theorem get?_of_getElem? {s : Sink} (h : s.names.Nodup) {i : Nat} {e : String × Value}
    (he : s.entries[i]? = some e) : s.get? e.1 = some e.2 :=
  Keyed.lookup_eq_some_of_mem h (List.mem_of_getElem? he)

/-! ### Insertions -/

/-- What an insertion answers and leaves behind: the name is new and comes last, or
its value gives way to the new one where it stands. -/
inductive Inserted (name : String) (v : Value) (s : Sink) : Option Value → Sink → Prop
  | appended (h : name ∉ s.names) : Inserted name v s none ⟨s.entries ++ [(name, v)]⟩
  | replaced {i : Nat} {old : Value} (h : s.entries[i]? = some (name, old)) :
      Inserted name v s (some old) ⟨s.entries.set i (name, v)⟩

/-- A reserved name is refused; any other is written to. -/
theorem insert_cases (name : String) (v : Value) (s : Sink) :
    (isReserved name = true ∧ s.insert name v = .error (.invalidParameterName name)) ∨
      (isReserved name = false ∧ ∃ old,
        s.insert name v = .ok (old, ⟨Keyed.put name v s.entries⟩) ∧
          Inserted name v s old ⟨Keyed.put name v s.entries⟩) := by
  rw [insert]
  cases hname : isReserved name with
  | true => exact .inl ⟨rfl, rfl⟩
  | false =>
    refine .inr ⟨rfl, s.get? name, rfl, ?_⟩
    rw [get?]
    -- Whether the name is new is seen by looking it up, and so is the value that gives way.
    rcases Keyed.put_cases name v s.entries with ⟨hget, hnew, hput⟩ | ⟨i, old, hget, hi, hput⟩
    · rw [hget, hput]
      exact .appended hnew
    · rw [hget, hput]
      exact .replaced hi

end Sink

namespace Open

open Sink (isReserved)

/-! ### Steps -/

/-- What a caller does to a sink; readers and queries may be its own. -/
inductive Step where
  | insert (name : String) (v : Value)
  | bind (style : PlaceholderStyle) (v : Value)
  | compile (c : Compiler) (s : Spec)

namespace Step

/-- A step writes to an entry that may be there already: it is an insertion under its name,
and the name is not reserved. -/
def Inserts (name : String) : Step → Prop
  | .insert n _ => n = name ∧ isReserved name = false
  | _ => False

/-- A step can make the one sink into the other.  Each step makes a sink into one other at
most, and a compilation makes none if it does not come to an end. -/
inductive Leads : Step → Sink → Sink → Prop
  | inserted {name : String} {v : Value} {s t : Sink} {old : Option Value}
      (h : s.insert name v = .ok (old, t)) : Leads (.insert name v) s t
  | refused {name : String} {v : Value} {s : Sink} {e : Error}
      (h : s.insert name v = .error e) : Leads (.insert name v) s s
  | bound (style : PlaceholderStyle) (v : Value) (s : Sink) :
      Leads (.bind style v) s (s.bind style v).2
  | compiled {c : Compiler} {x : Spec} {s t : Sink} {result : Except Error String}
      (h : c.EndsIn x s (result, t)) : Leads (.compile c x) s t

variable {step : Step} {s t : Sink}

/-- **What a step can do**: append values under new names, nothing, or write under one name
that is not reserved. -/
theorem Leads.cases (h : step.Leads s t) :
    (∃ style vs, t = s.bindAll style vs) ∨ t = s ∨
      ∃ name v, step = .insert name v ∧ isReserved name = false ∧
        t = ⟨Keyed.put name v s.entries⟩ := by
  cases h with
  | @inserted name v _ _ old h =>
    rcases Sink.insert_cases name v s with ⟨-, hrefused⟩ | ⟨hname, old', hinsert, -⟩
    · rw [hrefused] at h
      cases h
    · rw [hinsert] at h
      cases h
      exact .inr (.inr ⟨name, v, rfl, hname, rfl⟩)
  | refused h => exact .inr (.inl rfl)
  | bound style v => exact .inl ⟨style, [v], rfl⟩
  | @compiled c x _ _ result h => exact .inl ⟨c.dialect.options.placeholder, h.binds⟩

/-- An insertion leads to one sink. -/
theorem leads_insert_iff {name : String} {v : Value} :
    (Step.insert name v).Leads s t ↔
      (isReserved name = true ∧ t = s) ∨
        (isReserved name = false ∧ t = ⟨Keyed.put name v s.entries⟩) := by
  -- Whether the name is reserved decides between the two rules, and only one of them applies.
  constructor
  · intro h
    rcases Sink.insert_cases name v s with ⟨hname, hrefused⟩ | ⟨hname, old, hinsert, -⟩
    · refine .inl ⟨hname, ?_⟩
      cases h with
      | inserted h =>
        rw [hrefused] at h
        cases h
      | refused h => rfl
    · refine .inr ⟨hname, ?_⟩
      cases h with
      | inserted h =>
        rw [hinsert] at h
        cases h
        rfl
      | refused h =>
        rw [hinsert] at h
        cases h
  · rcases Sink.insert_cases name v s with ⟨hname, hrefused⟩ | ⟨hname, old, hinsert, -⟩
    · rintro (⟨-, rfl⟩ | ⟨hname', -⟩)
      · exact .refused hrefused
      · rw [hname] at hname'
        cases hname'
    · rintro (⟨hname', -⟩ | ⟨-, rfl⟩)
      · rw [hname] at hname'
        cases hname'
      · exact .inserted hinsert

theorem Leads.nodup_names (h : step.Leads s t) (hs : s.names.Nodup) : t.names.Nodup := by
  obtain ⟨style, vs, rfl⟩ | rfl | ⟨name, v, -, -, rfl⟩ := h.cases
  · exact Sink.nodup_names_bindAll hs style vs
  · exact hs
  · exact Keyed.nodup_put hs

/-- An entry stays where it is, with its value, unless the step names it. -/
theorem Leads.getElem? (h : step.Leads s t) {i : Nat} {e : String × Value}
    (he : s.entries[i]? = some e) (hstep : ¬ step.Inserts e.1) : t.entries[i]? = some e := by
  obtain ⟨style, vs, rfl⟩ | rfl | ⟨name, v, rfl, hname, rfl⟩ := h.cases
  · obtain ⟨new, hnew⟩ := s.prefix_bindAll style vs
    rw [← hnew, List.getElem?_append_left (List.getElem?_eq_some_iff.1 he).1]
    exact he
  · exact he
  · -- What is inserted has another name.
    refine Keyed.getElem?_put he ?_
    rintro rfl
    exact hstep ⟨rfl, hname⟩

end Step

/-! ### Sessions -/

/-- Some steps, one after the other, can make the one sink into the other. -/
inductive Session : List Step → Sink → Sink → Prop
  | nil (s : Sink) : Session [] s s
  | cons {step : Step} {steps : List Step} {s t u : Sink} (h : step.Leads s t)
      (hs : Session steps t u) : Session (step :: steps) s u

namespace Session

variable {steps : List Step} {s t : Sink}

theorem nodup_names (h : Session steps s t) (hs : s.names.Nodup) : t.names.Nodup := by
  induction h with
  | nil s => exact hs
  | cons hstep _ ih => exact ih (hstep.nodup_names hs)

/-- An entry stays where it is, with its value, unless a step of the session names it. -/
theorem getElem? (h : Session steps s t) {i : Nat} {e : String × Value}
    (he : s.entries[i]? = some e) (hsteps : ∀ step ∈ steps, ¬ step.Inserts e.1) :
    t.entries[i]? = some e := by
  induction h with
  | nil s => exact he
  | @cons step steps s t u hstep _ ih =>
    have hthere := hstep.getElem? he (hsteps step List.mem_cons_self)
    exact ih hthere fun later hlater => hsteps later (List.mem_cons_of_mem _ hlater)

end Session

/-! ### What a caller can rely on -/

/-- A sink is append-only for all but those who insert, whatever is done to it next. -/
structure IsAppendOnly (s : Sink) : Prop where
  names : s.names.Nodup
  /-- Binding appends one entry, under a new name, which the placeholder shows. -/
  bind : ∀ (style : PlaceholderStyle) (v : Value), ∃ name, name ∉ s.names ∧
    s.bind style v = (style.render name, s.append name v)
  /-- Compiling appends what it binds, whether it succeeds or fails. -/
  compile : ∀ (c : Compiler) (x : Spec) (result : Except Error String) (t : Sink),
    c.EndsIn x s (result, t) →
      (∃ vs, t = s.bindAll c.dialect.options.placeholder vs) ∧ s.entries <+: t.entries
  /-- An insertion that is refused changes nothing; one that is accepted appends an entry,
  or replaces the value of one in its place and answers the old value. -/
  insert : ∀ (name : String) (v : Value),
    (s.insert name v = .error (.invalidParameterName name) ∧
        ∀ t, (Step.insert name v).Leads s t ↔ t = s) ∨
      ∃ old t, s.insert name v = .ok (old, t) ∧ Sink.Inserted name v s old t ∧
        ∀ t', (Step.insert name v).Leads s t' ↔ t' = t
  /-- An entry keeps its position, its name and its value until its name is inserted. -/
  lasting : ∀ (i : Nat) (e : String × Value), s.entries[i]? = some e →
    ∀ (later : List Step) (t : Sink), Session later s t →
      (∀ step ∈ later, ¬ step.Inserts e.1) → t.entries[i]? = some e ∧ t.get? e.1 = some e.2

/-- Distinct names are all that it takes. -/
theorem isAppendOnly_of_nodup {s : Sink} (h : s.names.Nodup) : IsAppendOnly s where
  names := h
  bind style v := ⟨s.nextName style, s.nextName_notMem style, s.bind_eq style v⟩
  compile c x result t ht := ⟨ht.binds, ht.prefix_entries⟩
  insert name v := by
    rcases Sink.insert_cases name v s with ⟨hname, hrefused⟩ | ⟨hname, old, hinsert, ht⟩
    · refine .inl ⟨hrefused, fun t => ?_⟩
      rw [Step.leads_insert_iff, hname]
      simp
    · refine .inr ⟨old, _, hinsert, ht, fun t => ?_⟩
      rw [Step.leads_insert_iff, hname]
      simp
  lasting i e he later t hlater hnames := by
    have hthere := hlater.getElem? he hnames
    exact ⟨hthere, Sink.get?_of_getElem? (hlater.nodup_names h) hthere⟩

/-- **Every session leaves a sink that is append-only**, whatever readers and queries its
compilations had: names are distinct, binding and compiling only append, insertions append
or replace one entry, and what was bound is found by position and by name after all that
follows, unless an insertion names it. -/
theorem Session.isAppendOnly {steps : List Step} {s : Sink} (h : Session steps .empty s) :
    IsAppendOnly s :=
  isAppendOnly_of_nodup (h.nodup_names List.nodup_nil)

/-- A reader without operands makes a query that binds a value and then fails if it is the
first in the sink.  What it has bound is there for good: after an insertion under the next
name, and after the same text has compiled to a query in which the third name is used. -/
theorem Session.isAppendOnly_query :
    let fault := Error.unsupportedShape (.notCondition .subquery)
    let query : Program Spec := .bind (.int 1) fun placeholder => .look fun _ sink =>
      if sink.size = 1 then .fail fault else .answer placeholder
    let reader : Reader := fun _ _ =>
      .ok (.existence .positive (.template [.condition (.program query)]))
    let c : Compiler := ⟨⟨.standard, QuoteStyle.bare.quoter⟩, ⟨[("RECENT", reader)]⟩⟩
    let x : Spec := .operator "recent" []
    let s : Sink := ⟨[("p0", .int 1), ("p1", .int 3), ("p2", .int 1)]⟩
    c.EndsIn x .empty (.error fault, ⟨[("p0", .int 1)]⟩) ∧
      c.EndsIn x ⟨[("p0", .int 1), ("p1", .int 3)]⟩ (.ok "EXISTS (:p2)", s) ∧
      Session [.compile c x, .insert "p1" (.int 3), .compile c x] .empty s ∧
      s.get? "p0" = some (.int 1) := by
  intro fault query reader c x s
  have hnormal : Operator.normalize "recent" = "RECENT" := by decide +kernel
  have hstep (k : Spec → Render String) : c.step k x =
      (do return "EXISTS" ++ " " ++ parenthesized (← k (.program query)) : Render String) := by
    show c.write k (c.registry.parse "recent" []) = _
    rw [Registry.parse, hnormal, ← Spec.render_foreign c.dialect k query]
    rfl
  have hquery (k : Spec → Render String) (sink : Sink) : query.run c.dialect k sink =
      if (sink.append (sink.nextName (.named "p")) (.int 1)).size = 1 then
        (.error fault, sink.append (sink.nextName (.named "p")) (.int 1))
      else (.ok (":" ++ sink.nextName (.named "p")),
        sink.append (sink.nextName (.named "p")) (.int 1)) := by
    show Program.run c.dialect k
      (if (sink.append (sink.nextName (.named "p")) (.int 1)).size = 1 then .fail fault
        else .answer (":" ++ sink.nextName (.named "p"))) _ = _
    split <;> rfl
  -- One call for the operator, and one for the query that stands in its node.
  have hcalls (sink : Sink) (overflow : Spec → Render String) :
      x.compileWithin c overflow 2 sink =
        (do return "EXISTS" ++ " " ++ parenthesized (← query.run c.dialect overflow) :
          Render String) sink := by
    rw [Spec.compileWithin, hstep]
    rfl
  have hfailing : c.EndsIn x .empty (.error fault, ⟨[("p0", .int 1)]⟩) := by
    refine ⟨2, fun overflow => ?_⟩
    rw [hcalls, Render.bind_apply, hquery]
    rfl
  have hagain : c.EndsIn x ⟨[("p0", .int 1), ("p1", .int 3)]⟩ (.ok "EXISTS (:p2)", s) := by
    refine ⟨2, fun overflow => ?_⟩
    rw [hcalls, Render.bind_apply, hquery]
    rfl
  have hfirst : Session [.compile c x] .empty ⟨[("p0", .int 1)]⟩ :=
    .cons (.compiled hfailing) (.nil _)
  have hinsert : Sink.insert "p1" (.int 3) ⟨[("p0", .int 1)]⟩ =
      .ok (none, ⟨[("p0", .int 1), ("p1", .int 3)]⟩) := rfl
  have hlater : Session [.insert "p1" (.int 3), .compile c x] ⟨[("p0", .int 1)]⟩ s :=
    .cons (.inserted hinsert) (.cons (.compiled hagain) (.nil _))
  refine ⟨hfailing, hagain, .cons (.compiled hfailing) hlater, ?_⟩
  refine (hfirst.isAppendOnly.lasting 0 ("p0", .int 1) rfl _ s hlater fun step hstep => ?_).2
  rcases List.mem_pair.1 hstep with rfl | rfl
  · rintro ⟨hname, -⟩
    exact absurd hname (by decide)
  · exact id

end Open

end WhereClause
