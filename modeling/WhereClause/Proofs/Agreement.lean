/-
WhereClause/Proofs/Agreement.lean

When two conditions differ in nothing but the values that they test against.
The conditions that stand in them are related by some `R`; the values that face
each other may differ, so long as they are of one type, and so may the texts of
patterns; all else is equal.

Main results: a condition agrees with itself if what stands in it is related to
itself (`Condition.Agree.refl`), and conditions that agree do so after what
stands in them is replaced by related things (`Condition.Agree.map`).
-/
import Mathlib.Data.List.Forall2
import WhereClause.Condition

namespace WhereClause

variable {S T S' T' : Type} {R : S → T → Prop} {Q : S' → T' → Prop}

/-! ### Two things that agree -/

/-- Entries under the same key. -/
inductive Keyed.Agree (R : S → T → Prop) : String × S → String × T → Prop
  | mk (key : String) {a : S} {b : T} (h : R a b) : Agree R (key, a) (key, b)

/-- What a template binds may differ within its type; what it writes out may not. -/
inductive Template.Part.Agree (R : S → T → Prop) : Template.Part S → Template.Part T → Prop
  | text (s : String) : Agree R (.text s) (.text s)
  | value {v w : Value} (h : v.type = w.type) : Agree R (.value v) (.value w)
  | column (n : String) : Agree R (.column n) (.column n)
  | table (n : String) : Agree R (.table n) (.table n)
  | condition {c : S} {c' : T} (h : R c c') : Agree R (.condition c) (.condition c')
  | count : Agree R .count .count

/-- Queries of one shape, over the same tables and columns. -/
inductive Subquery.Agree (R : S → T → Prop) : Subquery S → Subquery T → Prop
  | plain (table : String) (columns : List String) :
      Agree R (.select table columns none) (.select table columns none)
  | filtered (table : String) (columns : List String) {c : S} {c' : T} (h : R c c') :
      Agree R (.select table columns (some c)) (.select table columns (some c'))
  | template {ps : List (Template.Part S)} {ps' : List (Template.Part T)}
      (h : List.Forall₂ (Template.Part.Agree R) ps ps') : Agree R (.template ps) (.template ps')

/-- Null faces null only, since it is written and not bound. -/
inductive Scalar.Agree (R : S → T → Prop) : Scalar S → Scalar T → Prop
  | null : Agree R .null .null
  | value {v w : Value} (h : v.type = w.type) : Agree R (.value v) (.value w)
  | raw (sql : RawSql) : Agree R (.raw sql) (.raw sql)
  | subquery {q : Subquery S} {q' : Subquery T} (h : q.Agree R q') :
      Agree R (.subquery q) (.subquery q')

/-- A column is written, so it is the same on both sides unless it is a query. -/
inductive Column.Agree (R : S → T → Prop) : Column S → Column T → Prop
  | name (n : String) : Agree R (.name n) (.name n)
  | raw (sql : RawSql) : Agree R (.raw sql) (.raw sql)
  | subquery {q : Subquery S} {q' : Subquery T} (h : q.Agree R q') :
      Agree R (.subquery q) (.subquery q')

/-- As many members on both sides, and the same keys in the same order. -/
inductive Operand.Agree (R : S → T → Prop) : Operand S → Operand T → Prop
  | scalar {s : Scalar S} {s' : Scalar T} (h : s.Agree R s') : Agree R (.scalar s) (.scalar s')
  | list {os : List (Operand S)} {os' : List (Operand T)} (h : List.Forall₂ (Agree R) os os') :
      Agree R (.list os) (.list os')
  | row {es : List (String × Operand S)} {es' : List (String × Operand T)}
      (h : List.Forall₂ (Keyed.Agree (Agree R)) es es') : Agree R (.row es) (.row es')

/-- A list faces a list as long as itself, and a query faces a query. -/
inductive Candidates.Agree (R : S → T → Prop) : Candidates S → Candidates T → Prop
  | members {os : List (Operand S)} {os' : List (Operand T)}
      (h : List.Forall₂ (Operand.Agree R) os os') : Agree R (.members os) (.members os')
  | subquery {q : Subquery S} {q' : Subquery T} (h : q.Agree R q') :
      Agree R (.subquery q) (.subquery q')

inductive HashTest.Agree (R : S → T → Prop) : HashTest S → HashTest T → Prop
  | scalar {s : Scalar S} {s' : Scalar T} (h : s.Agree R s') : Agree R (.scalar s) (.scalar s')
  | list {os : List (Operand S)} {os' : List (Operand T)}
      (h : List.Forall₂ (Operand.Agree R) os os') : Agree R (.list os) (.list os')

/-- The text of a pattern is a value. -/
inductive Pattern.Agree (R : S → T → Prop) : Pattern S → Pattern T → Prop
  | text (s s' : String) : Agree R (.text s) (.text s')
  | raw (sql : RawSql) : Agree R (.raw sql) (.raw sql)
  | subquery {q : Subquery S} {q' : Subquery T} (h : q.Agree R q') :
      Agree R (.subquery q) (.subquery q')

/-- Nodes of one kind, with the same operator, whose parts agree. -/
inductive Condition.Agree (R : S → T → Prop) : Condition S → Condition T → Prop
  | hash {es : List (String × HashTest S)} {es' : List (String × HashTest T)}
      (h : List.Forall₂ (Keyed.Agree (HashTest.Agree R)) es es') : Agree R (.hash es) (.hash es')
  | comparison (operator : ComparisonOperator) {c : Column S} {c' : Column T} {x : Scalar S}
      {x' : Scalar T} (hc : c.Agree R c') (hx : x.Agree R x') :
      Agree R (.comparison c operator x) (.comparison c' operator x')
  | membership (columns : List PlainColumn) (polarity : Polarity) {x : Candidates S}
      {x' : Candidates T} (hx : x.Agree R x') :
      Agree R (.membership columns polarity x) (.membership columns polarity x')
  | between (polarity : Polarity) {c : Column S} {c' : Column T} {x y : Scalar S}
      {x' y' : Scalar T} (hc : c.Agree R c') (hx : x.Agree R x') (hy : y.Agree R y') :
      Agree R (.between c polarity x y) (.between c' polarity x' y')
  | betweenColumns (polarity : Polarity) {x : Scalar S} {x' : Scalar T} {b c : Column S}
      {b' c' : Column T} (hx : x.Agree R x') (hb : b.Agree R b') (hc : c.Agree R c') :
      Agree R (.betweenColumns x polarity b c) (.betweenColumns x' polarity b' c')
  | pattern (operator : LikeOperator) (escaping : Escaping) {c : Column S} {c' : Column T}
      {ps : List (Pattern S)} {ps' : List (Pattern T)} (hc : c.Agree R c')
      (hps : List.Forall₂ (Pattern.Agree R) ps ps') :
      Agree R (.pattern c operator ps escaping) (.pattern c' operator ps' escaping)
  | negation {c : S} {c' : T} (h : R c c') : Agree R (.negation c) (.negation c')
  | junction (operator : Junction) {cs : List S} {cs' : List T} (h : List.Forall₂ R cs cs') :
      Agree R (.junction operator cs) (.junction operator cs')
  | existence (polarity : Polarity) {q : Subquery S} {q' : Subquery T} (h : q.Agree R q') :
      Agree R (.existence polarity q) (.existence polarity q')

/-! ### A condition agrees with itself -/

theorem Template.Part.Agree.refl {R : S → S → Prop} (p : Template.Part S)
    (h : ∀ t ∈ p.nested, R t t) : p.Agree R p := by
  cases p with
  | text s => exact .text s
  | value v => exact .value rfl
  | column n => exact .column n
  | table n => exact .table n
  | condition c => exact .condition (h c (List.mem_singleton.2 rfl))
  | count => exact .count

/-- A query agrees with itself if what stands in it is related to itself. So it is for every
part of a node, and for the node. -/
theorem Subquery.Agree.refl {R : S → S → Prop} (q : Subquery S) (h : ∀ t ∈ q.nested, R t t) :
    q.Agree R q := by
  cases q with
  | select table columns filter =>
    cases filter with
    | none => exact .plain table columns
    | some c => exact .filtered table columns (h c (List.mem_singleton.2 rfl))
  | template parts =>
    refine .template (List.forall₂_same.2 fun p hp => ?_)
    exact .refl p fun t ht => h t (List.mem_flatMap.2 ⟨p, hp, ht⟩)

theorem Scalar.Agree.refl {R : S → S → Prop} (s : Scalar S) (h : ∀ t ∈ s.nested, R t t) :
    s.Agree R s := by
  cases s with
  | null => exact .null
  | value v => exact .value rfl
  | raw sql => exact .raw sql
  | subquery q => exact .subquery (.refl q h)

theorem Column.Agree.refl {R : S → S → Prop} (c : Column S) (h : ∀ t ∈ c.nested, R t t) :
    c.Agree R c := by
  cases c with
  | name n => exact .name n
  | raw sql => exact .raw sql
  | subquery q => exact .subquery (.refl q h)

namespace Operand.Agree

mutual

/-- The induction is on the operand, with one statement for it, its members and its entries. -/
theorem refl {R : S → S → Prop} : ∀ o : Operand S, (∀ t ∈ o.nested, R t t) → o.Agree R o
  | .scalar s, h => .scalar (.refl s fun t ht => h t (by rwa [nested]))
  | .list os, h => .list (refl_items os fun t ht => h t (by rwa [nested]))
  | .row es, h => .row (refl_entries es fun t ht => h t (by rwa [nested]))

theorem refl_items {R : S → S → Prop} : ∀ os : List (Operand S),
    (∀ t ∈ nestedItems os, R t t) → List.Forall₂ (Operand.Agree R) os os
  | [], _ => .nil
  | o :: os, h =>
    .cons (refl o fun t ht => h t (by rw [nestedItems]; exact List.mem_append_left _ ht))
      (refl_items os fun t ht => h t (by rw [nestedItems]; exact List.mem_append_right _ ht))

theorem refl_entries {R : S → S → Prop} : ∀ es : List (String × Operand S),
    (∀ t ∈ nestedEntries es, R t t) → List.Forall₂ (Keyed.Agree (Operand.Agree R)) es es
  | [], _ => .nil
  | (k, o) :: es, h =>
    .cons (.mk k (refl o fun t ht =>
        h t (by rw [nestedEntries]; exact List.mem_append_left _ ht)))
      (refl_entries es fun t ht =>
        h t (by rw [nestedEntries]; exact List.mem_append_right _ ht))

end

end Operand.Agree

theorem Candidates.Agree.refl {R : S → S → Prop} (c : Candidates S)
    (h : ∀ t ∈ c.nested, R t t) : c.Agree R c := by
  cases c with
  | members items => exact .members (Operand.Agree.refl_items items h)
  | subquery q => exact .subquery (.refl q h)

theorem HashTest.Agree.refl {R : S → S → Prop} (e : HashTest S) (h : ∀ t ∈ e.nested, R t t) :
    e.Agree R e := by
  cases e with
  | scalar s => exact .scalar (.refl s h)
  | list items => exact .list (Operand.Agree.refl_items items h)

theorem Pattern.Agree.refl {R : S → S → Prop} (p : Pattern S) (h : ∀ t ∈ p.nested, R t t) :
    p.Agree R p := by
  cases p with
  | text s => exact .text s s
  | raw sql => exact .raw sql
  | subquery q => exact .subquery (.refl q h)

theorem Condition.Agree.refl {R : S → S → Prop} (c : Condition S) (h : ∀ t ∈ c.nested, R t t) :
    c.Agree R c := by
  cases c with
  | hash entries =>
    refine .hash (List.forall₂_same.2 fun e he => ?_)
    exact .mk e.1 (.refl e.2 fun t ht => h t (List.mem_flatMap.2 ⟨e, he, ht⟩))
  | comparison column operator value =>
    have hcolumn : column.Agree R column := .refl column fun t ht => h t (List.mem_append_left _ ht)
    have hvalue : value.Agree R value := .refl value fun t ht => h t (List.mem_append_right _ ht)
    exact .comparison operator hcolumn hvalue
  | membership columns polarity candidates =>
    exact .membership columns polarity (.refl candidates h)
  | between column polarity low high =>
    have hbounds : ∀ t ∈ low.nested ++ high.nested, R t t :=
      fun t ht => h t (List.mem_append_right _ ht)
    exact .between polarity (.refl column fun t ht => h t (List.mem_append_left _ ht))
      (.refl low fun t ht => hbounds t (List.mem_append_left _ ht))
      (.refl high fun t ht => hbounds t (List.mem_append_right _ ht))
  | betweenColumns value polarity low high =>
    have hbounds : ∀ t ∈ low.nested ++ high.nested, R t t :=
      fun t ht => h t (List.mem_append_right _ ht)
    exact .betweenColumns polarity (.refl value fun t ht => h t (List.mem_append_left _ ht))
      (.refl low fun t ht => hbounds t (List.mem_append_left _ ht))
      (.refl high fun t ht => hbounds t (List.mem_append_right _ ht))
  | pattern column operator patterns escaping =>
    have hpatterns : ∀ p ∈ patterns, p.Agree R p := by
      intro p hp
      refine .refl p fun t ht => h t (List.mem_append_right _ ?_)
      exact List.mem_flatMap.2 ⟨p, hp, ht⟩
    exact .pattern operator escaping (.refl column fun t ht => h t (List.mem_append_left _ ht))
      (List.forall₂_same.2 hpatterns)
  | negation inner => exact .negation (h inner (List.mem_singleton.2 rfl))
  | junction operator operands => exact .junction operator (List.forall₂_same.2 h)
  | existence polarity q => exact .existence polarity (.refl q h)

/-! ### Replacing what stands in conditions that agree -/

/-- Related lists stay related, member by member, when what is known of the left side helps. -/
theorem forall₂_map_of_mem {α β α' β' : Type} {P : α → β → Prop} {Q : α' → β' → Prop}
    {f : α → α'} {g : β → β'} {as : List α} {bs : List β} (h : List.Forall₂ P as bs)
    (hfg : ∀ a ∈ as, ∀ b, P a b → Q (f a) (g b)) :
    List.Forall₂ Q (as.map f) (bs.map g) := by
  rw [List.forall₂_map_left_iff, List.forall₂_map_right_iff]
  -- The members of the first list are remembered, for what is known of them.
  have hmem : List.Forall₂ (fun a b => a ∈ as ∧ P a b) as bs :=
    (List.forall₂_and_left as bs).2 ⟨fun _ ha => ha, h⟩
  exact hmem.imp fun a b hab => hfg a hab.1 b hab.2

variable {f : S → S'} {g : T → T'}

theorem Template.Part.Agree.map {p : Template.Part S} {p' : Template.Part T} (h : p.Agree R p')
    (hfg : ∀ t ∈ p.nested, ∀ t', R t t' → Q (f t) (g t')) : (p.map f).Agree Q (p'.map g) := by
  cases h with
  | text s => exact .text s
  | value h => exact .value h
  | column n => exact .column n
  | table n => exact .table n
  | condition h => exact .condition (hfg _ (List.mem_singleton.2 rfl) _ h)
  | count => exact .count

/-- What stands in a query on the left is known to stand there when the two sides are replaced.
-/
theorem Subquery.Agree.map {q : Subquery S} {q' : Subquery T} (h : q.Agree R q')
    (hfg : ∀ t ∈ q.nested, ∀ t', R t t' → Q (f t) (g t')) : (q.map f).Agree Q (q'.map g) := by
  cases h with
  | plain table columns => exact .plain table columns
  | filtered table columns h =>
    exact .filtered table columns (hfg _ (List.mem_singleton.2 rfl) _ h)
  | template h =>
    rw [map_template, map_template]
    refine .template (forall₂_map_of_mem h fun p hp p' hpp' => ?_)
    exact hpp'.map fun t ht => hfg t (List.mem_flatMap.2 ⟨p, hp, ht⟩)

theorem Scalar.Agree.map {s : Scalar S} {s' : Scalar T} (h : s.Agree R s')
    (hfg : ∀ t ∈ s.nested, ∀ t', R t t' → Q (f t) (g t')) : (s.map f).Agree Q (s'.map g) := by
  cases h with
  | null => exact .null
  | value h => exact .value h
  | raw sql => exact .raw sql
  | subquery h => exact .subquery (h.map hfg)

theorem Column.Agree.map {c : Column S} {c' : Column T} (h : c.Agree R c')
    (hfg : ∀ t ∈ c.nested, ∀ t', R t t' → Q (f t) (g t')) : (c.map f).Agree Q (c'.map g) := by
  cases h with
  | name n => exact .name n
  | raw sql => exact .raw sql
  | subquery h => exact .subquery (h.map hfg)

namespace Operand.Agree

mutual

/-- The two operands are gone through together, since agreement has one case for each. -/
theorem map : ∀ {o : Operand S} {o' : Operand T}, o.Agree R o' →
    (∀ t ∈ o.nested, ∀ t', R t t' → Q (f t) (g t')) → (o.map f).Agree Q (o'.map g)
  | .scalar s, _, .scalar h, hfg => by
    rw [map_scalar, map_scalar]
    exact .scalar (h.map fun t ht => hfg t (by rwa [nested]))
  | .list os, _, .list h, hfg => by
    rw [map_list, map_list]
    exact .list (map_items h fun t ht => hfg t (by rwa [nested]))
  | .row es, _, .row h, hfg => by
    rw [map_row, map_row]
    exact .row (map_entries h fun t ht => hfg t (by rwa [nested]))

/-- Members are replaced pair by pair. -/
theorem map_items : ∀ {os : List (Operand S)} {os' : List (Operand T)},
    List.Forall₂ (Operand.Agree R) os os' →
    (∀ t ∈ nestedItems os, ∀ t', R t t' → Q (f t) (g t')) →
    List.Forall₂ (Operand.Agree Q) (os.map (Operand.map f)) (os'.map (Operand.map g))
  | [], _, .nil, _ => .nil
  | o :: os, _, .cons h hs, hfg =>
    .cons (map h fun t ht => hfg t (by rw [nestedItems]; exact List.mem_append_left _ ht))
      (map_items hs fun t ht => hfg t (by rw [nestedItems]; exact List.mem_append_right _ ht))

/-- Entries are replaced pair by pair, and their keys stay. -/
theorem map_entries : ∀ {es : List (String × Operand S)} {es' : List (String × Operand T)},
    List.Forall₂ (Keyed.Agree (Operand.Agree R)) es es' →
    (∀ t ∈ nestedEntries es, ∀ t', R t t' → Q (f t) (g t')) →
    List.Forall₂ (Keyed.Agree (Operand.Agree Q)) (es.map fun e => (e.1, e.2.map f))
      (es'.map fun e => (e.1, e.2.map g))
  | [], _, .nil, _ => .nil
  | (k, o) :: es, _, .cons (.mk _ h) hs, hfg =>
    .cons (.mk k (map h fun t ht =>
        hfg t (by rw [nestedEntries]; exact List.mem_append_left _ ht)))
      (map_entries hs fun t ht =>
        hfg t (by rw [nestedEntries]; exact List.mem_append_right _ ht))

end

end Operand.Agree

theorem Candidates.Agree.map {c : Candidates S} {c' : Candidates T} (h : c.Agree R c')
    (hfg : ∀ t ∈ c.nested, ∀ t', R t t' → Q (f t) (g t')) : (c.map f).Agree Q (c'.map g) := by
  cases h with
  | members h =>
    rw [map_members, map_members]
    exact .members (Operand.Agree.map_items h hfg)
  | subquery h => exact .subquery (h.map hfg)

theorem HashTest.Agree.map {e : HashTest S} {e' : HashTest T} (h : e.Agree R e')
    (hfg : ∀ t ∈ e.nested, ∀ t', R t t' → Q (f t) (g t')) : (e.map f).Agree Q (e'.map g) := by
  cases h with
  | scalar h => exact .scalar (h.map hfg)
  | list h =>
    rw [map_list, map_list]
    exact .list (Operand.Agree.map_items h hfg)

theorem Pattern.Agree.map {p : Pattern S} {p' : Pattern T} (h : p.Agree R p')
    (hfg : ∀ t ∈ p.nested, ∀ t', R t t' → Q (f t) (g t')) : (p.map f).Agree Q (p'.map g) := by
  cases h with
  | text s s' => exact .text s s'
  | raw sql => exact .raw sql
  | subquery h => exact .subquery (h.map hfg)

theorem Condition.Agree.map {c : Condition S} {c' : Condition T} (h : c.Agree R c')
    (hfg : ∀ t ∈ c.nested, ∀ t', R t t' → Q (f t) (g t')) : (c.map f).Agree Q (c'.map g) := by
  -- In each case `hfg` is restricted to the part in which the condition stands.
  cases h with
  | hash h =>
    rw [map_hash, map_hash]
    refine .hash (forall₂_map_of_mem h fun e he e' hee' => ?_)
    obtain ⟨key, hte⟩ := hee'
    exact .mk key (hte.map fun t ht => hfg t (List.mem_flatMap.2 ⟨_, he, ht⟩))
  | comparison operator hc hx =>
    exact .comparison operator (hc.map fun t ht => hfg t (List.mem_append_left _ ht))
      (hx.map fun t ht => hfg t (List.mem_append_right _ ht))
  | membership columns polarity hx => exact .membership columns polarity (hx.map hfg)
  | between polarity hc hx hy =>
    exact .between polarity (hc.map fun t ht => hfg t (List.mem_append_left _ ht))
      (hx.map fun t ht => hfg t (List.mem_append_right _ (List.mem_append_left _ ht)))
      (hy.map fun t ht => hfg t (List.mem_append_right _ (List.mem_append_right _ ht)))
  | betweenColumns polarity hx hb hc =>
    exact .betweenColumns polarity (hx.map fun t ht => hfg t (List.mem_append_left _ ht))
      (hb.map fun t ht => hfg t (List.mem_append_right _ (List.mem_append_left _ ht)))
      (hc.map fun t ht => hfg t (List.mem_append_right _ (List.mem_append_right _ ht)))
  | pattern operator escaping hc hps =>
    rw [map_pattern, map_pattern]
    refine .pattern operator escaping (hc.map fun t ht => hfg t (List.mem_append_left _ ht))
      (forall₂_map_of_mem hps fun p hp p' hpp' => ?_)
    exact hpp'.map fun t ht => hfg t (List.mem_append_right _ (List.mem_flatMap.2 ⟨p, hp, ht⟩))
  | negation h => exact .negation (hfg _ (List.mem_singleton.2 rfl) _ h)
  | junction operator h =>
    rw [map_junction, map_junction]
    exact .junction operator (forall₂_map_of_mem h hfg)
  | existence polarity h => exact .existence polarity (h.map hfg)

/-! ### Attempts -/

/-- Two attempts fail alike or both succeed. -/
inductive Attempt.Agree {α β : Type} (P : α → β → Prop) : Except Error α → Except Error β → Prop
  | ok {a : α} {b : β} (h : P a b) : Agree P (.ok a) (.ok b)
  | error (e : Error) : Agree P (.error e) (.error e)

namespace Attempt.Agree

variable {α β γ δ : Type} {P : α → β → Prop} {Q : γ → δ → Prop}

/-- An attempt agrees with itself, also if it fails. -/
theorem refl {P : α → α → Prop} (h : ∀ a, P a a) : ∀ x : Except Error α, Agree P x x
  | .ok a => .ok (h a)
  | .error e => .error e

/-- What follows is asked for agreement only where both succeed, and if one fails both do. -/
theorem bind {x : Except Error α} {y : Except Error β} {f : α → Except Error γ}
    {g : β → Except Error δ} (h : Agree P x y) (hfg : ∀ a b, P a b → Agree Q (f a) (g b)) :
    Agree Q (x >>= f) (y >>= g) := by
  cases h with
  | ok h => exact hfg _ _ h
  | error e => exact .error e

/-- Attempts on two lists agree if they do pair by pair; the first that fails is the same one.
-/
theorem mapM {f : α → Except Error γ} {g : β → Except Error δ} {as : List α} {bs : List β}
    (h : List.Forall₂ P as bs) (hfg : ∀ a b, P a b → Agree Q (f a) (g b)) :
    Agree (List.Forall₂ Q) (as.mapM f) (bs.mapM g) := by
  induction h with
  | nil => exact .ok .nil
  | cons hab _ ih =>
    rw [List.mapM_cons, List.mapM_cons]
    refine (hfg _ _ hab).bind fun c c' hc => ?_
    exact ih.bind fun cs cs' hcs => .ok (.cons hc hcs)

end Attempt.Agree

/-! ### What can be seen of operands -/

/-- An error that names a shape names the same one on both sides. -/
theorem Scalar.Agree.shape_eq {s : Scalar S} {s' : Scalar T} (h : s.Agree R s') :
    s.shape = s'.shape := by
  cases h with
  | value h => exact congrArg Shape.value h
  | _ => rfl

theorem Operand.Agree.shape_eq {o : Operand S} {o' : Operand T} (h : o.Agree R o') :
    o.shape = o'.shape := by
  cases h with
  | scalar h => exact h.shape_eq
  | _ => rfl

/-- An error that names a condition names the same kind on both sides. -/
theorem Condition.Agree.kind_eq {c : Condition S} {c' : Condition T} (h : c.Agree R c') :
    c.kind = c'.kind := by
  cases h <;> rfl

/-- The same keys are present, and what stands under them is related. -/
theorem Keyed.Agree.lookup {es : List (String × S)} {es' : List (String × T)}
    (h : List.Forall₂ (Keyed.Agree R) es es') (key : String) :
    Option.Rel R (es.lookup key) (es'.lookup key) := by
  induction h with
  | nil => exact .none
  | cons he _ ih =>
    obtain ⟨k, hab⟩ := he
    rw [List.lookup_cons, List.lookup_cons]
    cases key == k with
    | true => exact .some hab
    | false => exact ih

/-- Lists of one length have their members in the same places. -/
theorem forall₂_getElem? {as : List S} {bs : List T} (h : List.Forall₂ R as bs) (i : Nat) :
    Option.Rel R as[i]? bs[i]? := by
  induction h generalizing i with
  | nil => exact .none
  | cons hab _ ih =>
    cases i with
    | zero => exact .some hab
    | succ i => exact ih i

/-- Operands that face each other have the same number. -/
theorem forall₂_zipIdx {as : List S} {bs : List T} (h : List.Forall₂ R as bs) (n : Nat) :
    List.Forall₂ (fun e e' => R e.1 e'.1 ∧ e.2 = e'.2) (as.zipIdx n) (bs.zipIdx n) := by
  induction h generalizing n with
  | nil => exact .nil
  | cons hab _ ih => exact .cons ⟨hab, rfl⟩ (ih (n + 1))

end WhereClause
