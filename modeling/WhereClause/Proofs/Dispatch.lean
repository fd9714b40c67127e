/-
WhereClause/Proofs/Dispatch.lean

Which form reads the operands of a token, after any number of registrations.  Of the
registrations of a token and of those with the same normal form the last one counts,
and the forms that are there from the start count as registered first.

Main results: what one registration changes (`Registry.get?_register`), what is found
after several (`Registry.get?_registerAll`), and that dispatch follows the last of them
whatever the forms are (`Registry.dispatch_registerAll`).
-/
import Mathlib.Data.List.Induction
import WhereClause.Registry

namespace WhereClause

namespace Keyed

variable {κ α : Type} [DecidableEq κ]

/-- Entries of distinct keys are there once they are written. -/
theorem foldl_put_of_nodup {es fs : List (κ × α)} (h : ((es ++ fs).map (·.1)).Nodup) :
    fs.foldl (fun es p => put p.1 p.2 es) es = es ++ fs := by
  induction fs generalizing es with
  | nil => rw [List.foldl_nil, List.append_nil]
  | cons e fs ih =>
    have hsplit : es ++ e :: fs = (es ++ [e]) ++ fs := by simp
    have hnew : e.1 ∉ es.map (·.1) := by
      rw [List.map_append, List.nodup_append] at h
      exact fun hmem => h.2.2 _ hmem _ List.mem_cons_self rfl
    have hput : put e.1 e.2 es = es ++ [e] := by
      rcases put_cases e.1 e.2 es with ⟨-, -, hput⟩ | ⟨i, b, hlookup, -, -⟩
      · exact hput
      · exact absurd (List.mem_map_of_mem (mem_of_lookup hlookup)) hnew
    rw [List.foldl_cons, hput, ih (hsplit ▸ h), hsplit]

end Keyed

namespace Registry

variable {F G : Type} {r : Registry F}

/-- Register several forms, one after the other. -/
def registerAll (history : List (String × F)) (r : Registry F) : Registry F :=
  history.foldl (fun r e => r.register e.1 e.2) r

/-- The form in the last registration of a token or of one with its normal form. -/
def last? (history : List (String × F)) (token : String) : Option F :=
  ((history.filter fun e => Operator.normalize e.1 = Operator.normalize token).getLast?).map (·.2)

/-! ### Registrations -/

/-- A registration is found under the tokens of its normal form, and no other notices it. -/
theorem get?_register (token : String) (form : F) (r : Registry F) (token' : String) :
    (r.register token form).get? token' =
      if Operator.normalize token' = Operator.normalize token then some form else r.get? token' :=
  Keyed.lookup_put _ _ _ _

theorem get?_congr {token token' : String}
    (h : Operator.normalize token = Operator.normalize token') : r.get? token = r.get? token' := by
  rw [get?, get?, h]

theorem registerAll_cons (e : String × F) (later : List (String × F)) (r : Registry F) :
    r.registerAll (e :: later) = (r.register e.1 e.2).registerAll later :=
  List.foldl_cons

theorem registerAll_append (history later : List (String × F)) (r : Registry F) :
    r.registerAll (history ++ later) = (r.registerAll history).registerAll later :=
  List.foldl_append

theorem last?_concat (history : List (String × F)) (e : String × F) (token : String) :
    last? (history ++ [e]) token =
      if Operator.normalize token = Operator.normalize e.1 then some e.2
      else last? history token := by
  rw [last?, List.filter_append]
  by_cases h : Operator.normalize token = Operator.normalize e.1
  · rw [if_pos h, List.filter_cons_of_pos (by simp [h]), List.filter_nil, List.getLast?_concat]
    rfl
  · have hne : ¬Operator.normalize e.1 = Operator.normalize token := fun heq => h heq.symm
    rw [if_neg h, List.filter_cons_of_neg (by simpa using hne), List.filter_nil, List.append_nil]
    rfl

/-- **What is found after several registrations** is the last one with the normal form
of the token, or else what was found before. -/
theorem get?_registerAll (history : List (String × F)) (r : Registry F) (token : String) :
    (r.registerAll history).get? token = (last? history token).or (r.get? token) := by
  induction history using List.reverseRecOn with
  | nil => rfl
  | append_singleton history e ih =>
    rw [registerAll_append, last?_concat]
    have hstep := get?_register e.1 e.2 (r.registerAll history) token
    split
    · next h => exact hstep.trans (if_pos h)
    · next h => exact (hstep.trans (if_neg h)).trans ih

/-- Two registrations of tokens that are told apart may come in either order. -/
theorem get?_registerAll_swap {e e' : String × F}
    (h : Operator.normalize e.1 ≠ Operator.normalize e'.1) (history later : List (String × F))
    (r : Registry F) (token : String) :
    (r.registerAll (history ++ e :: e' :: later)).get? token =
      (r.registerAll (history ++ e' :: e :: later)).get? token := by
  have hpair : (((r.registerAll history).register e.1 e.2).register e'.1 e'.2).get? token =
      (((r.registerAll history).register e'.1 e'.2).register e.1 e.2).get? token := by
    rw [get?_register, get?_register, get?_register, get?_register]
    by_cases ht : Operator.normalize token = Operator.normalize e.1
    · rw [if_neg fun ht' => h (ht.symm.trans ht'), if_pos ht, if_pos ht]
    · rw [if_neg ht, if_neg ht]
  rw [registerAll_append, registerAll_append, registerAll_cons, registerAll_cons,
    registerAll_cons, registerAll_cons, get?_registerAll, get?_registerAll, hpair]

/-! ### The forms that are there from the start -/

/-- Forms under distinct normalized tokens are what registering them leads to. -/
theorem registerAll_empty {forms : List (String × F)}
    (hnormal : ∀ e ∈ forms, Operator.normalize e.1 = e.1) (hnodup : (forms.map (·.1)).Nodup) :
    Registry.empty.registerAll forms = ⟨forms⟩ := by
  -- Registering writes under the normal form, which is the token itself.
  have hrun (history : List (String × F)) (es : List (String × F))
      (h : ∀ e ∈ history, Operator.normalize e.1 = e.1) :
      (Registry.mk es).registerAll history =
        ⟨history.foldl (fun es p => Keyed.put p.1 p.2 es) es⟩ := by
    induction history generalizing es with
    | nil => rfl
    | cons e history ih =>
      have hregister : (Registry.mk es).register e.1 e.2 = ⟨Keyed.put e.1 e.2 es⟩ := by
        rw [register, h e List.mem_cons_self]
      rw [registerAll_cons, hregister, List.foldl_cons]
      exact ih _ fun e' he' => h e' (List.mem_cons_of_mem e he')
  exact (hrun forms [] hnormal).trans (congrArg _ (Keyed.foldl_put_of_nodup hnodup))

/-- The standard registry is made by registering its operators. -/
theorem registerAll_standard (f : OperatorForm → F) :
    Registry.empty.registerAll (standard.map f).forms = standard.map f := by
  have hkeys : (standard.map f).forms.map (·.1) = standard.forms.map (·.1) := List.map_map
  have hnodup : (standard.forms.map (·.1)).Nodup := by decide
  refine registerAll_empty (fun e he => ?_) (hkeys ▸ hnodup)
  have hall : ∀ token ∈ standard.forms.map (·.1), Operator.normalize token = token := by
    decide +kernel
  exact hall e.1 (hkeys ▸ List.mem_map_of_mem he)

/-! ### Dispatch -/

theorem parseBy_eq (read : F → OperandReader) (r : Registry F) (token : String)
    (operands : List Spec) :
    r.parseBy read token operands =
      match r.get? token with
      | some form => read form (Operator.normalize token) operands
      | none =>
        if isComparison (Operator.normalize token) then
          Condition.readComparison (Operator.normalize token) operands
        else .error (.unknownOperator (Operator.normalize token)) :=
  rfl

theorem parseBy_congr {r' : Registry F} (read : F → OperandReader) {token : String}
    (h : r.get? token = r'.get? token) (operands : List Spec) :
    r.parseBy read token operands = r'.parseBy read token operands := by
  rw [parseBy_eq, parseBy_eq, h]

/-- **Dispatch follows the last registration.**  Whatever forms are registered, and
whether or not the standard ones are there from the start, a token has the form that was
last registered under its normal form; its operands are read by that form, or else as
those of a comparison, if the token may be written as one.  So equivalent tokens are
dispatched alike, no registration changes what others lead to, and such registrations
may come in either order. -/
theorem dispatch_registerAll (read : F → OperandReader) (f : OperatorForm → F)
    {base : Registry F} (hbase : base = .empty ∨ base = standard.map f)
    (history : List (String × F)) :
    (∀ token,
      (base.registerAll history).get? token = last? (base.forms ++ history) token ∧
      ∀ operands, (base.registerAll history).parseBy read token operands =
        match last? (base.forms ++ history) token with
        | some form => read form (Operator.normalize token) operands
        | none =>
          if isComparison (Operator.normalize token) then
            Condition.readComparison (Operator.normalize token) operands
          else .error (.unknownOperator (Operator.normalize token))) ∧
    (∀ token token', Operator.normalize token = Operator.normalize token' → ∀ operands,
      (base.registerAll history).parseBy read token operands =
        (base.registerAll history).parseBy read token' operands) ∧
    (∀ token form token', Operator.normalize token' ≠ Operator.normalize token →
      ((base.registerAll history).register token form).get? token' =
        (base.registerAll history).get? token' ∧
      ∀ operands, ((base.registerAll history).register token form).parseBy read token' operands =
        (base.registerAll history).parseBy read token' operands) ∧
    ∀ e e' later, Operator.normalize e.1 ≠ Operator.normalize e'.1 → ∀ token,
      (base.registerAll (history ++ e :: e' :: later)).get? token =
        (base.registerAll (history ++ e' :: e :: later)).get? token ∧
      ∀ operands, (base.registerAll (history ++ e :: e' :: later)).parseBy read token operands =
        (base.registerAll (history ++ e' :: e :: later)).parseBy read token operands := by
  -- The forms that are there from the start may be taken to be registered, too.
  have hall : base.registerAll history = Registry.empty.registerAll (base.forms ++ history) := by
    have hforms : Registry.empty.registerAll base.forms = base := by
      rcases hbase with rfl | rfl
      · rfl
      · exact registerAll_standard f
    rw [registerAll_append, hforms]
  have hfound (token : String) :
      (base.registerAll history).get? token = last? (base.forms ++ history) token := by
    rw [hall, get?_registerAll]
    exact Option.or_none
  refine ⟨fun token => ⟨hfound token, fun operands => ?_⟩, fun token token' h operands => ?_,
    fun token form token' h => ?_, fun e e' later h token => ?_⟩
  · rw [parseBy_eq, hfound]
  · rw [parseBy_eq, parseBy_eq, get?_congr h, h]
  · have hother := (get?_register token form (base.registerAll history) token').trans (if_neg h)
    exact ⟨hother, parseBy_congr read hother⟩
  · have hswap := get?_registerAll_swap h history later base token
    exact ⟨hswap, parseBy_congr read hswap⟩

/-- A form of one's own takes the place of a standard one, under all spellings. -/
theorem dispatch_registerAll_shadows :
    let overlap : OperandReader := fun _ operands => Condition.readComparison "&&" operands
    let refuse : OperandReader := fun token _ => .error (.unknownOperator token)
    let history := [("gro\u00df", refuse), (" not  in", refuse), ("Not In", overlap), ("=", refuse)]
    let r := (standard.map OperatorForm.read).registerAll history
    (∀ operands, r.parseBy id "NOT\tIN" operands = Condition.readComparison "&&" operands) ∧
      (∀ operands, r.parseBy id "gross" operands = r.parseBy id "GRO\u00df" operands) ∧
      (∀ operands, (r.register "in" refuse).parseBy id "=" operands =
        r.parseBy id "=" operands) ∧
      ∀ operands, ((standard.map OperatorForm.read).registerAll
          [("=", refuse), ("==", overlap)]).parseBy id "==" operands =
        ((standard.map OperatorForm.read).registerAll
          [("==", overlap), ("=", refuse)]).parseBy id "==" operands := by
  intro overlap refuse history r
  have hrun := dispatch_registerAll id OperatorForm.read (.inr rfl) history
  refine ⟨fun operands => ?_, hrun.2.1 _ _ (by decide +kernel),
    (hrun.2.2.1 _ _ _ (by decide +kernel)).2, ?_⟩
  · have hlast : last? ((standard.map OperatorForm.read).forms ++ history) "NOT\tIN" =
        some overlap := by
      have hsplit : (standard.map OperatorForm.read).forms ++ history =
          (((standard.map OperatorForm.read).forms ++ history.take 2) ++ [("Not In", overlap)]) ++
            [("=", refuse)] := by
        simp [history]
      rw [hsplit, last?_concat, if_neg (by decide +kernel), last?_concat,
        if_pos (by decide +kernel)]
    rw [(hrun.1 "NOT\tIN").2, hlast]
    rfl
  · exact ((dispatch_registerAll id OperatorForm.read (.inr rfl) []).2.2.2
      ("=", refuse) ("==", overlap) [] (by decide +kernel) "==").2

end Registry

end WhereClause
