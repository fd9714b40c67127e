/-
WhereClause/Proofs/FirstFailure.lean

Where the layers of an error lead.  Each layer names an operand of a junction, or
that of a negation; read from the outside in, they are directions from the
specification that did not compile to the one that failed in it.

Main results: the directions of an error can be followed (`Spec.leads_of_error`),
past operands that compile on every sink, to a specification that fails on every
sink with the root of the error alone (`Compiler.compileInto_error_layers`).
-/
import WhereClause.Proofs.Cause
import WhereClause.Proofs.Render.Success
import WhereClause.Proofs.Sink.Numeral

namespace WhereClause

open Render

/-! ### Directions -/

/-- The layers around the root of an error as texts, outermost first. -/
def Error.layers (e : Error) : List String := e.path.map (·.describe)

/-- The operand that a layer names, behind those that stand before it. -/
def Condition.step? {S : Type} (layer : String) : Condition S → Option (List S × S)
  | .junction j operands =>
    (operands.zipIdx.find? fun x => layer == (Place.operand (x.2 + 1) j).describe).map fun x =>
      (operands.take x.2, x.1)
  | .negation inner => if layer = Place.negated.describe then some ([], inner) else none
  | _ => none

namespace Spec

def step? (r : Registry) (s : Spec) (layer : String) : Option (List Spec × Spec) :=
  match s.read r with
  | .node c => c.step? layer
  | _ => none

/-- Follow the layers from a specification.  The result is what is passed, each with
the operands before the chosen one, and what is reached. -/
def follow? (r : Registry) : List String → Spec → Option (List (Spec × List Spec) × Spec)
  | [], s => some ([], s)
  | layer :: layers, s => do
    let (before, t) ← s.step? r layer
    let (passed, u) ← follow? r layers t
    return ((s, before) :: passed, u)

/-- A junction or a negation. -/
def IsConnective (r : Registry) (s : Spec) : Prop :=
  (∃ j operands, s.read r = .node (.junction j operands)) ∨
    ∃ inner, s.read r = .node (.negation inner)

end Spec

/-! ### One step -/

theorem Place.describe_operand_inj {m n : Nat} {j : Junction}
    (h : (operand m j).describe = (operand n j).describe) : m = n := by
  simp only [describe, String.append_left_inj, String.append_right_inj] at h
  exact Numeral.repr_injective h

namespace Condition

variable {S : Type} {f : S → Render String} {d : Dialect}

theorem step?_junction (j : Junction) (before after : List S) (t : S) :
    (junction j (before ++ t :: after)).step? (Place.operand (before.length + 1) j).describe =
      some (before, t) := by
  let named (x : S × Nat) : Bool :=
    (Place.operand (before.length + 1) j).describe == (Place.operand (x.2 + 1) j).describe
  have hat : (before ++ t :: after)[before.length]? = some t := by simp
  have hmem : (t, before.length) ∈ (before ++ t :: after).zipIdx :=
    List.mem_zipIdx_iff_getElem?.2 hat
  obtain ⟨⟨t', i⟩, hfind⟩ := Option.isSome_iff_exists.1 <|
    List.find?_isSome (p := named).2 ⟨_, hmem, beq_self_eq_true _⟩
  -- No other operand has this number.
  have hnamed : named (t', i) = true := List.find?_some hfind
  obtain rfl : before.length = i := Nat.succ.inj (Place.describe_operand_inj (eq_of_beq hnamed))
  obtain rfl : t = t' := by
    have hat' := List.mem_zipIdx_iff_getElem?.1 (List.mem_of_find?_eq_some hfind)
    exact Option.some.inj (hat.symm.trans hat')
  rw [step?, hfind]
  simp

theorem step?_negation (inner : S) :
    (negation inner).step? Place.negated.describe = some ([], inner) := by
  rw [step?, if_pos rfl]

/-- The negation of a condition fails where the condition does. -/
theorem exists_of_negation {inner : S} {sink : Sink} {e : Error}
    (h : (((negation inner).map f).render d sink).1 = .error e) :
    ∃ e', (f inner sink).1 = .error e' ∧ e = .within .negated e' := by
  rcases fst_bind_eq_error h with h | ⟨a, s, -, h⟩
  · exact fst_within_eq_error h
  · exact absurd h (by simp)

/-- A junction fails in the first of its operands that does. -/
theorem exists_of_junction {j : Junction} {operands : List S} {sink : Sink} {e : Error}
    (h : (((junction j operands).map f).render d sink).1 = .error e) :
    ∃ before t after e', operands = before ++ t :: after ∧
      (∀ o ∈ before, ∃ s sql s', f o s = (.ok sql, s')) ∧ (∃ s, (f t s).1 = .error e') ∧
      e = .within (.operand (before.length + 1) j) e' := by
  rw [map_junction] at h
  -- Joining what the operands wrote cannot fail, so one of them did.
  rcases fst_bind_eq_error h with h | ⟨a, s, -, h⟩
  · rw [renderOperands, List.zipIdx_map, List.mapM_map] at h
    obtain ⟨before, ⟨t, i⟩, after, hoperands, hbefore, s, ht⟩ := exists_of_fst_mapM_eq_error h
    obtain ⟨e', he', rfl⟩ := fst_within_eq_error ht
    -- The run goes over operands with their numbers, which are taken off again here.
    have hsplit : operands = before.map Prod.fst ++ t :: after.map Prod.fst := by
      rw [← List.zipIdx_map_fst 0 operands, hoperands, List.map_append, List.map_cons]
    -- The number in the layer is that of the operand, so it counts what stands before.
    have hi : i = (before.map Prod.fst).length := by
      have hat : operands.zipIdx[before.length]? = some (t, i) := by
        simp [hoperands]
      rw [List.getElem?_zipIdx] at hat
      obtain ⟨t', -, heq⟩ := Option.map_eq_some_iff.1 hat
      rw [List.length_map]
      exact (Nat.zero_add _ ▸ (Prod.mk.inj heq).2).symm
    refine ⟨_, t, _, e', hsplit, ?_, ⟨s, he'⟩,
      congrArg (fun n => Error.within (.operand (n + 1) j) e') hi⟩
    intro o ho
    obtain ⟨x, hx, rfl⟩ := List.mem_map.1 ho
    obtain ⟨s, sql, s', hrun⟩ := hbefore x hx
    exact ⟨s, sql, s', within_eq_ok.1 hrun⟩
  · exact absurd h (by simp)

end Condition

/-! ### Specifications -/

namespace Spec

theorem step?_of_read {r : Registry} {s : Spec} {c : Condition Spec} (h : s.read r = .node c)
    (layer : String) : s.step? r layer = c.step? layer := by
  rw [step?, h]

theorem follow?_cons {r : Registry} {layer : String} {layers : List String} {s t u : Spec}
    {before : List Spec} {passed : List (Spec × List Spec)}
    (hstep : s.step? r layer = some (before, t)) (h : t.follow? r layers = some (passed, u)) :
    s.follow? r (layer :: layers) = some ((s, before) :: passed, u) := by
  rw [follow?, hstep]
  show (follow? r layers t >>= _) = _
  rw [h]
  rfl

/-- From `s` the layers lead to `t`, through as many junctions and negations, past
operands that compile. -/
structure Leads (r : Registry) (layers : List String) (s : Spec)
    (passed : List (Spec × List Spec)) (t : Spec) : Prop where
  follow : s.follow? r layers = some (passed, t)
  length : passed.length = layers.length
  connective : ∀ p ∈ passed, p.1.IsConnective r
  compiles : ∀ p ∈ passed, ∀ o ∈ p.2, o.Compiles r

theorem Leads.nil (r : Registry) (s : Spec) : Leads r [] s [] s :=
  ⟨rfl, rfl, by simp, by simp⟩

theorem Leads.cons {r : Registry} {layer : String} {layers : List String} {s t u : Spec}
    {before : List Spec} {passed : List (Spec × List Spec)} (hs : s.IsConnective r)
    (hstep : s.step? r layer = some (before, t)) (hbefore : ∀ o ∈ before, o.Compiles r)
    (h : Leads r layers t passed u) : Leads r (layer :: layers) s ((s, before) :: passed) u where
  follow := follow?_cons hstep h.follow
  length := congrArg (· + 1) h.length
  connective := List.forall_mem_cons.2 ⟨hs, h.connective⟩
  compiles := List.forall_mem_cons.2 ⟨hbefore, h.compiles⟩

/-- What is neither a junction nor a negation is made of no conditions. -/
theorem operands_eq_nil {r : Registry} {s : Spec} {c : Condition Spec} (h : s.read r = .node c)
    (hs : ¬ s.IsConnective r) : c.operands = [] := by
  cases c with
  | junction j operands => exact absurd (.inl ⟨j, operands, h⟩) hs
  | negation inner => exact absurd (.inr ⟨inner, h⟩) hs
  | _ => rfl

variable {table : List (String × Builtin)} {d : Dialect} {s : Spec} {sink : Sink} {e : Error}

/-- Without sub-queries, what is neither a junction nor a negation fails with a cause. -/
theorem isCause_of_compile (hsubqueries : s.OnSubqueries fun _ => False)
    (hs : ¬ s.IsConnective (.ofBuiltins table))
    (h : (s.compile ⟨d, .ofBuiltins table⟩ sink).1 = .error e) : e.IsCause := by
  -- Reading fails with a cause; so does writing what has no conditions in it.
  cases hr : s.read (.ofBuiltins table) with
  | text sql =>
    rw [compile_eq, hr] at h
    exact absurd h (by simp [Reading.map, Reading.pmap, Reading.render])
  | failed e' =>
    rw [compile_eq, hr] at h
    obtain rfl : e' = e := Except.error.inj h
    exact isCause_of_read table hr
  | node c =>
    have hnone : ∀ q ∈ c.subqueries, False := fun q hq =>
      ((hsubqueries.read table hr).of_condition.1 q hq).1
    rw [compile_of_read hr] at h
    exact Condition.causes_render (operands_eq_nil hr hs)
      (fun q hq => (hnone q hq).elim) sink e h

/-- An error in a junction or a negation is that of an operand, in its place; the
operands before it compile. -/
theorem exists_of_isConnective {c : Compiler} (hs : s.IsConnective c.registry)
    (h : (s.compile c sink).1 = .error e) :
    ∃ x place before t e', s.read c.registry = .node x ∧ t ∈ x.operands ∧
      x.step? place.describe = some (before, t) ∧ (∀ o ∈ before, o.Compiles c.registry) ∧
      (∃ sink, (t.compile c sink).1 = .error e') ∧ e = .within place e' := by
  rcases hs with ⟨j, operands, hr⟩ | ⟨inner, hr⟩
  · rw [compile_of_read hr] at h
    obtain ⟨before, t, after, e', rfl, hbefore, ht, he⟩ := Condition.exists_of_junction h
    refine ⟨_, _, before, t, e', hr, by simp [Condition.operands],
      Condition.step?_junction j before after t, fun o ho => ?_, ht, he⟩
    obtain ⟨s₁, sql, s₂, hrun⟩ := hbefore o ho
    exact (succeedsIff_compile c o s₁).1 ⟨sql, s₂, hrun⟩
  · rw [compile_of_read hr] at h
    obtain ⟨e', herror, he⟩ := Condition.exists_of_negation h
    exact ⟨_, _, [], inner, e', hr, List.mem_singleton_self inner,
      Condition.step?_negation inner, by simp, ⟨sink, herror⟩, he⟩

/-- **The layers of an error can be followed** to something that is neither a junction
nor a negation, and that fails with the root. -/
theorem leads_of_error (hsubqueries : s.OnSubqueries fun _ => False)
    (h : (s.compile ⟨d, .ofBuiltins table⟩ sink).1 = .error e) :
    ∃ passed t, Leads (.ofBuiltins table) e.layers s passed t ∧
      ¬ t.IsConnective (.ofBuiltins table) ∧ (t.OnSubqueries fun _ => False) ∧
      ∃ sink, (t.compile ⟨d, .ofBuiltins table⟩ sink).1 = .error e.root := by
  -- The induction is on what is read, for all sinks and errors, since the inner run starts
  -- elsewhere.
  induction s using Spec.induction_read (.ofBuiltins table) generalizing sink e with
  | step s ih =>
    by_cases hs : s.IsConnective (.ofBuiltins table)
    · -- The outermost layer is a step to an operand; the others lead on from there.
      obtain ⟨x, place, before, t, e', hr, ht, hstep, hbefore, ⟨sink', herror⟩, rfl⟩ :=
        exists_of_isConnective hs h
      obtain ⟨passed, u, hleads, hu⟩ := ih t (hr ▸ Condition.mem_nested_of_operand ht)
        ((hsubqueries.read table hr).of_condition.2 t ht) herror
      exact ⟨_, u, .cons hs ((step?_of_read hr _).trans hstep) hbefore hleads, hu⟩
    · -- There are no layers, and nowhere to go.
      have hcause := isCause_of_compile hsubqueries hs h
      have hlayers : e.layers = [] := congrArg (List.map _) hcause
      rw [hlayers, hcause.root_eq]
      exact ⟨[], s, .nil _ s, hs, hsubqueries, sink, h⟩

/-- Where all sub-queries are selections, what fails on one sink fails on all. -/
theorem compile_eq_error (hs : s.OnSubqueries Subquery.IsSelection)
    (h : (s.compile ⟨d, .ofBuiltins table⟩ sink).1 = .error e) (sink' : Sink) :
    (s.compile ⟨d, .ofBuiltins table⟩ sink').1 = .error e := by
  -- A run is the same on all sinks: it has one error, or none at all.
  rcases uniform_compile table d s hs [] with ⟨e', he'⟩ | ⟨values, a, -, -, hrun⟩
  · have hstart : (s.compile ⟨d, .ofBuiltins table⟩ sink).1 = .error e' :=
      he' ⟨d.options.placeholder, sink⟩
    rw [hstart] at h
    exact Except.error.inj h ▸ he' ⟨d.options.placeholder, sink'⟩
  · have hstart : s.compile ⟨d, .ofBuiltins table⟩ sink = _ :=
      hrun ⟨d.options.placeholder, sink⟩
    rw [hstart] at h
    exact absurd h (by simp)

end Spec

namespace Compiler

/-- **The layers of an error lead to the first failure.**  Without sub-queries, they can
be followed from the specification through as many junctions and negations; all
operands that stand before the chosen ones compile, and what is reached fails with the
root of the error, which has no layers. -/
theorem compileInto_error_layers (d : Dialect) (s : Spec)
    (hsubqueries : s.OnSubqueries fun _ => False) (sink : Sink) (e : Error) :
    let c := Compiler.mk d .standard
    (c.compileInto s sink).1 = .error e →
      ∃ passed t, s.follow? c.registry e.layers = some (passed, t) ∧
        passed.length = e.layers.length ∧
        (∀ p ∈ passed, p.1.IsConnective c.registry ∧
          ∀ o ∈ p.2, ∀ sink, ∃ sql sink', c.compileInto o sink = (.ok sql, sink')) ∧
        ¬ t.IsConnective c.registry ∧
        (∀ sink, (c.compileInto t sink).1 = .error e.root) ∧
        ∀ place inner, e.root ≠ .within place inner := by
  intro c h
  have hrun : (s.compile ⟨d, .ofBuiltins Registry.standardTable⟩ sink).1 = .error e := h
  obtain ⟨passed, t, hleads, ht, hinner, sink', hroot⟩ := Spec.leads_of_error hsubqueries hrun
  -- Without sub-queries nothing depends on the sink, so what was seen on one holds on all.
  refine ⟨passed, t, hleads.follow, hleads.length, fun p hp => ⟨hleads.connective p hp,
    fun o ho sink => ?_⟩, ht, fun sink => ?_, e.root_ne_within⟩
  · exact (Spec.succeedsIff_compile c o sink).2 (hleads.compiles p hp o ho)
  · exact Spec.compile_eq_error (hinner.mono fun _ h => h.elim) hroot sink

/-- An operand that places no constraint is left out, and counted. -/
theorem compileInto_error_layers_nested :
    let c : Compiler := ⟨⟨.standard, QuoteStyle.bare.quoter⟩, .standard⟩
    let fault : Spec := .list [.scalar (.value (.int 3))]
    let or : Spec := .condition (.junction .or [.condition (.negation fault)])
    let s : Spec := .condition (.junction .and [.list [], or])
    let e : Error := .unsupportedShape (.noOperator (.value .int))
    ∃ e', (c.compileInto s .empty).1 = .error e' ∧
      e'.layers = ["operand 2 of AND", "operand 1 of OR", "operand of NOT"] ∧
      s.follow? c.registry e'.layers =
        some ([(s, [.list []]), (or, []), (.condition (.negation fault), [])], fault) ∧
      ∀ sink, (c.compileInto fault sink).1 = .error e := by
  intro c fault or s e
  have hfault : fault.OnSubqueries fun _ => False :=
    .list fun t ht => List.mem_singleton.1 ht ▸ .scalar (by simp [Scalar.subqueries])
      (by simp [Scalar.subqueries])
  have hoperands {x : Condition Spec} (hx : x.subqueries = [])
      (h : ∀ t ∈ x.operands, t.OnSubqueries fun _ => False) :
      (Spec.condition x).OnSubqueries fun _ => False :=
    .condition (by simp [hx]) (by simp [hx]) h
  have hor : or.OnSubqueries fun _ => False :=
    hoperands rfl fun t ht => List.mem_singleton.1 ht ▸
      hoperands rfl fun t ht => List.mem_singleton.1 ht ▸ hfault
  have hs : s.OnSubqueries fun _ => False :=
    hoperands rfl (List.forall_mem_cons.2 ⟨.list (by simp), List.forall_mem_singleton.2 hor⟩)
  let e' : Error := .within (.operand 2 .and) (.within (.operand 1 .or) (.within .negated e))
  have hrun : (c.compileInto s .empty).1 = .error e' := by
    rw [compileInto, Spec.compile_condition, Condition.map_junction, List.map_cons,
      List.map_singleton, Spec.compile_condition, Condition.map_junction, List.map_singleton,
      Spec.compile_condition, Condition.map_negation, Spec.compile_eq, Spec.compile_eq c fault]
    rfl
  obtain ⟨passed, t, hfollow, -, -, -, hroot, -⟩ :=
    compileInto_error_layers c.dialect s hs .empty e' hrun
  have hreached : s.follow? c.registry e'.layers =
      some ([(s, [.list []]), (or, []), (.condition (.negation fault), [])], fault) := by
    refine Spec.follow?_cons ((Spec.step?_of_read rfl _).trans
      (Condition.step?_junction .and [.list []] [] or)) ?_
    refine Spec.follow?_cons ((Spec.step?_of_read rfl _).trans
      (Condition.step?_junction .or [] [] (.condition (.negation fault)))) ?_
    exact Spec.follow?_cons ((Spec.step?_of_read rfl _).trans
      (Condition.step?_negation fault)) rfl
  obtain ⟨-, rfl⟩ := Prod.mk.inj (Option.some.inj (hreached.symm.trans hfollow))
  exact ⟨e', hrun, rfl, hreached, hroot⟩

end Compiler

end WhereClause
