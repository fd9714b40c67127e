/-
WhereClause/Proofs/Values.lean

The values that a condition binds.  They are read off the condition alone, from
left to right, without looking at any text: `Spec.values` goes down a
specification level by level and lists each value where it stands.  A driver that
matches values to placeholders by position relies on this order.

Main results: if what stands in a node binds its values then so does the node
(`Condition.appends_render`), and a specification that compiles has bound exactly
its values, in their order (`Compiler.values_compileInto`).
-/
import WhereClause.Compiler
import WhereClause.Proofs.Render.Runs
import WhereClause.Proofs.Sink.Fresh

namespace WhereClause

/-! ### The values in a condition -/

/-- Of the parts a value is bound, and a condition binds its own. -/
def Template.Part.values : Template.Part (List Value) → List Value
  | .value v => [v]
  | .condition vs => vs
  | _ => []

/-- A selection binds what its filter binds. -/
def Subquery.values : Subquery (List Value) → List Value
  | .select _ _ filter => filter.getD []
  | .template parts => parts.flatMap (·.values)

/-- Null and raw SQL are written out. -/
def Scalar.values : Scalar (List Value) → List Value
  | .null | .raw _ => []
  | .value v => [v]
  | .subquery q => q.values

/-- A column binds what its query binds. -/
def Column.values : Column (List Value) → List Value
  | .name _ | .raw _ => []
  | .subquery q => q.values

namespace Membership

/-- An entry that is absent is null. -/
def entryValues : Option (Operand (List Value)) → List Value
  | some (.scalar s) => s.values
  | _ => []

/-- The entries of a row that belong to the columns, in the order of the columns;
those of a list belong to them by position. -/
def rowValues (columns : List PlainColumn) : Operand (List Value) → List Value
  | .row entries => columns.flatMap fun c => entryValues (entries.lookup c.key)
  | .list items => (items.take columns.length).flatMap fun o => entryValues (some o)
  | .scalar _ => []

/-- Without a column nothing is tested and nothing is bound. -/
def values : List PlainColumn → Candidates (List Value) → List Value
  | [], _ => []
  | _, .subquery q => q.values
  | [column], .members items => items.flatMap fun o => entryValues (entryUnder column o)
  | columns, .members items => items.flatMap (rowValues columns)

end Membership

/-- A list in a hash is a test of membership in the column of its entry. -/
def HashTest.values (column : String) : HashTest (List Value) → List Value
  | .scalar s => s.values
  | .list items => Membership.values [.name column] (.members items)

/-- A text is bound as the pattern that it makes. -/
def Pattern.values (table : Option (List (Char × String))) : Pattern (List Value) → List Value
  | .text s => [.text (ofText table s)]
  | .raw _ => []
  | .subquery q => q.values

/-- The values of a node, given those of what stands in it. -/
def Condition.values (o : Options) : Condition (List Value) → List Value
  | .hash entries => entries.flatMap fun e => e.2.values e.1
  | .comparison column _ value => column.values ++ value.values
  | .membership columns _ candidates => Membership.values columns candidates
  | .between column _ low high => column.values ++ (low.values ++ high.values)
  | .betweenColumns value _ low high => value.values ++ (low.values ++ high.values)
  | .pattern _ _ [] _ => []
  | .pattern column _ patterns escaping =>
    column.values ++ patterns.flatMap (·.values (o.escapeTable escaping))
  | .negation inner => inner
  | .junction _ operands => operands.flatten
  | .existence _ q => q.values

/-- What is written as it is binds nothing. -/
def Reading.values (o : Options) : Reading (List Value) → List Value
  | .node c => c.values o
  | _ => []

/-- The values of a specification. -/
def Spec.values (c : Compiler) (s : Spec) : List Value :=
  s.fold c.registry (Reading.values c.dialect.options)

/-- The values of a level, given those of the next. -/
theorem Spec.values_eq (c : Compiler) (s : Spec) :
    s.values c = ((s.read c.registry).map (values c)).values c.dialect.options :=
  fold_eq _ _ s

/-! ### Steps that bind given values -/

namespace Render

variable {α β : Type} {style : PlaceholderStyle} {vs ws : List Value}

/-- If the step succeeds then it has bound these values. -/
def Appends (style : PlaceholderStyle) (vs : List Value) (x : Render α) : Prop :=
  ∀ s a t, x s = (.ok a, t) → t = s.bindAll style vs

/-- A text that is answered binds nothing. -/
theorem Appends.pure (a : α) : Appends style [] (Pure.pure a : Render α) := by
  intro s a' t hrun
  obtain ⟨-, rfl⟩ := pure_eq_ok.1 hrun
  rfl

/-- Of a step that fails nothing is said. -/
theorem Appends.fail (e : Error) : Appends style vs (fail e : Render α) := by
  intro s a t hrun
  exact absurd hrun (by simp [Render.fail])

/-- Two steps bind one after the other. -/
theorem Appends.bind {x : Render α} {f : α → Render β} (hx : Appends style vs x)
    (hf : ∀ a, Appends style ws (f a)) : Appends style (vs ++ ws) (x >>= f) := by
  intro s b t hrun
  obtain ⟨a, s', hx', hf'⟩ := bind_eq_ok.1 hrun
  rw [Sink.bindAll_append, ← hx s a s' hx']
  exact hf a s' b t hf'

/-- What is made of a result binds nothing more. -/
theorem Appends.map {x : Render α} (hx : Appends style vs x) (f : α → β) :
    Appends style vs (x >>= fun a => Pure.pure (f a)) := by
  have h := hx.bind fun a => Appends.pure (f a)
  rwa [List.append_nil] at h

/-- A place is put before errors only. -/
theorem Appends.within {x : Render α} (place : Place) (hx : Appends style vs x) :
    Appends style vs (within place x) :=
  fun s a t hrun => hx s a t (within_eq_ok.1 hrun)

/-- A binding binds its value. -/
theorem Appends.value (d : Dialect) (v : Value) :
    Appends d.options.placeholder [v] (d.bind v) := by
  intro s sql t hrun
  have ht : (s.bind d.options.placeholder v).2 = t := (Prod.mk.inj hrun).2
  exact ht.symm

/-- A list of steps binds one after the other; steps and values come from the same items. -/
theorem Appends.mapM {γ δ : Type} {f : β → Render γ} {g : δ → List Value} {p : α → β} {q : α → δ}
    {as : List α} (h : ∀ a ∈ as, Appends style (g (q a)) (f (p a))) :
    Appends style ((as.map q).flatMap g) ((as.map p).mapM f) := by
  induction as with
  | nil => exact .pure []
  | cons a as ih =>
    rw [List.map_cons, List.map_cons, List.mapM_cons, List.flatMap_cons]
    obtain ⟨ha, has⟩ := List.forall_mem_cons.1 h
    apply Appends.bind ha
    intro b
    exact (ih has).map fun bs => b :: bs

end Render

open Render

variable {S : Type} {f : S → Render String} {g : S → List Value} {d : Dialect}

/-! ### Sub-queries and the sides of a test -/

/-- Counting binds nothing, although it looks at the sink. -/
theorem Template.Part.appends_render {p : Template.Part S}
    (h : ∀ t ∈ p.nested, Appends d.options.placeholder (g t) (f t)) :
    Appends d.options.placeholder (p.map g).values ((p.map f).render d) := by
  cases p with
  | text s => exact .pure s
  | value v => exact .value d v
  | column n => exact .pure _
  | table n => exact .pure _
  | condition c => exact h c (List.mem_singleton.2 rfl)
  | count =>
    have hcount : Appends d.options.placeholder [] Render.count :=
      fun s n t hrun => (Prod.mk.inj hrun).2.symm
    exact hcount.map Nat.repr

/-- The parts of a query bind in the order in which they are written. -/
theorem Subquery.appends_render {q : Subquery S}
    (h : ∀ t ∈ q.nested, Appends d.options.placeholder (g t) (f t)) :
    Appends d.options.placeholder (q.map g).values ((q.map f).render d) := by
  match q with
  | .select table columns none => exact .pure _
  | .select table columns (some c) => exact (h c (List.mem_singleton.2 rfl)).map _
  | .template parts =>
    rw [map_template, map_template]
    have hparts : ∀ p ∈ parts,
        Appends d.options.placeholder (p.map g).values ((p.map f).render d) := by
      intro p hp
      apply Template.Part.appends_render
      intro t ht
      exact h t (List.mem_flatMap.2 ⟨p, hp, ht⟩)
    exact (Appends.mapM hparts).map _

/-- A value is bound, and a query binds its own. -/
theorem Scalar.appends_render {s : Scalar S}
    (h : ∀ t ∈ s.nested, Appends d.options.placeholder (g t) (f t)) :
    Appends d.options.placeholder (s.map g).values ((s.map f).render d) := by
  cases s with
  | null => exact .pure _
  | value v => exact .value d v
  | raw sql => exact .pure _
  | subquery q => exact (Subquery.appends_render h).map _

theorem Column.appends_render {c : Column S}
    (h : ∀ t ∈ c.nested, Appends d.options.placeholder (g t) (f t)) :
    Appends d.options.placeholder (c.map g).values ((c.map f).render d) := by
  cases c with
  | name n => exact .pure _
  | raw sql => exact .pure _
  | subquery q => exact (Subquery.appends_render h).map _

/-- What is bound is the pattern that the escaping makes of the text. -/
theorem Pattern.appends_render (table : Option (List (Char × String))) {p : Pattern S}
    (h : ∀ t ∈ p.nested, Appends d.options.placeholder (g t) (f t)) :
    Appends d.options.placeholder ((p.map g).values table) ((p.map f).render d table) := by
  cases p with
  | text s => exact .value d _
  | raw sql => exact .pure _
  | subquery q => exact (Subquery.appends_render h).map _

/-! ### Membership tests -/

namespace Membership

/-- A member that is null or raw SQL is written and not bound. -/
theorem appends_renderMember (operator : String) (m : Option (Operand S)) :
    Appends d.options.placeholder (entryValues (m.map (Operand.map g)))
      (renderMember d operator (m.map (Operand.map f))) := by
  cases m with
  | none => exact .pure none
  | some o =>
    rw [Option.map_some, Option.map_some]
    cases o with
    | scalar s =>
      rw [Operand.map_scalar, Operand.map_scalar]
      cases s with
      | null => exact .pure none
      | value v => exact (Appends.value d v).map some
      | raw sql => exact .pure _
      | subquery q => exact .fail _
    | list items =>
      rw [Operand.map_list f]
      exact .fail _
    | row entries =>
      rw [Operand.map_row f]
      exact .fail _

/-- An entry that is absent is written as `NULL`, which binds nothing. -/
theorem appends_renderEntry (operator : String) {m : Option (Operand S)}
    (h : ∀ o ∈ m, ∀ t ∈ o.nested, Appends d.options.placeholder (g t) (f t)) :
    Appends d.options.placeholder (entryValues (m.map (Operand.map g)))
      (renderEntry d operator (m.map (Operand.map f))) := by
  cases m with
  | none => exact .pure _
  | some o =>
    rw [Option.map_some, Option.map_some]
    cases o with
    | scalar s =>
      rw [Operand.map_scalar, Operand.map_scalar]
      exact Scalar.appends_render fun t ht => h _ rfl t (by rwa [Operand.nested])
    | list items =>
      rw [Operand.map_list f]
      exact .fail _
    | row entries =>
      rw [Operand.map_row f]
      exact .fail _

/-- The values of a row are those of the entries that are looked at; beyond the end of a list
there are none. -/
theorem rowValues_eq {operator : String} {columns : List PlainColumn}
    {o : Operand (List Value)} {entries : List (Option (Operand (List Value)))}
    (h : rowEntries operator columns o = .ok entries) :
    rowValues columns o = entries.flatMap entryValues := by
  cases o with
  | scalar s => exact absurd h (by simp [rowEntries])
  | list items =>
    cases h
    -- Beyond the end of the list there are entries that bind nothing.
    have habsent : (List.replicate (columns.length - items.length) none).flatMap entryValues = [] :=
      List.flatMap_eq_nil_iff.2 fun m hm => List.eq_of_mem_replicate hm ▸ rfl
    rw [range_map_getElem?, List.flatMap_append, habsent, List.append_nil, List.flatMap_map,
      rowValues]
  | row es =>
    cases h
    rw [rowValues, List.flatMap_map]

/-- A row binds the entries under its columns, in the order of the columns. -/
theorem appends_renderRow (operator : String) (columns : List PlainColumn) {o : Operand S}
    (h : ∀ t ∈ o.nested, Appends d.options.placeholder (g t) (f t)) :
    Appends d.options.placeholder (rowValues columns (o.map g))
      (renderRow d operator columns (o.map f)) := by
  have hf := rowEntries_map f operator columns o
  have hg := rowEntries_map g operator columns o
  rw [renderRow, hf]
  cases hentries : rowEntries operator columns o with
  | error e => exact .fail e
  | ok entries =>
    rw [hentries] at hg
    rw [rowValues_eq hg]
    -- What is bound for an entry is known from the entry alone.
    have hmapM : ∀ m ∈ entries,
        Appends d.options.placeholder (entryValues (m.map (Operand.map g)))
          (renderEntry d operator (m.map (Operand.map f))) := by
      intro m hm
      apply appends_renderEntry operator
      intro o' ho' t ht
      rw [Option.mem_def.1 ho'] at hm
      exact h t (mem_nested_of_rowEntries hentries hm ht)
    exact (Appends.mapM hmapM).map _

/-- A test of membership binds its members in turn. Without a column or without members nothing
is written that could bind. -/
theorem appends_render (columns : List PlainColumn) (polarity : Polarity) {x : Candidates S}
    (h : ∀ t ∈ x.nested, Appends d.options.placeholder (g t) (f t)) :
    Appends d.options.placeholder (values columns (x.map g))
      (render d columns polarity (x.map f)) := by
  cases x with
  | subquery q =>
    match columns with
    | [] => exact .pure _
    | [_] => exact (Subquery.appends_render h).map _
    | _ :: _ :: _ => exact (Subquery.appends_render h).map _
  | members items =>
    rw [Candidates.map_members, Candidates.map_members]
    have hnested : ∀ o ∈ items, ∀ t ∈ o.nested, Appends d.options.placeholder (g t) (f t) :=
      fun o ho t ht => h t (Operand.mem_nestedItems ho ht)
    -- The list of values has one case for each form, as rendering has.
    match columns, items with
    | [], [] => exact .pure _
    | [], _ :: _ => exact .pure _
    | [_], [] => exact .pure _
    | _ :: _ :: _, [] => exact .pure _
    | [column], m :: ms =>
      have hmembers : Appends d.options.placeholder
          (((m :: ms).map (Operand.map g)).flatMap fun o => entryValues (entryUnder column o))
          (((m :: ms).map (Operand.map f)).mapM fun o =>
            renderMember d (polarity.apply "IN") (entryUnder column o)) := by
        apply Appends.mapM
        intro o _
        rw [entryUnder_map, entryUnder_map]
        exact appends_renderMember _ _
      exact hmembers.map _
    | c :: c' :: cs, m :: ms =>
      have hrows : Appends d.options.placeholder
          (((m :: ms).map (Operand.map g)).flatMap (rowValues (c :: c' :: cs)))
          (((m :: ms).map (Operand.map f)).mapM
            (renderRow d (polarity.apply "IN") (c :: c' :: cs))) := by
        apply Appends.mapM
        intro o ho
        exact appends_renderRow _ _ (hnested o ho)
      exact hrows.map _

end Membership

/-! ### Nodes -/

/-- The test of an entry binds one value or none, or is a test of membership. -/
theorem HashTest.appends_render (column : String) {e : HashTest S}
    (h : ∀ t ∈ e.nested, Appends d.options.placeholder (g t) (f t)) :
    Appends d.options.placeholder ((e.map g).values column) ((e.map f).render d column) := by
  cases e with
  | scalar s =>
    cases s with
    | null => exact .pure _
    | value v => exact (Appends.value d v).map _
    | raw sql => exact .pure _
    | subquery q => exact Membership.appends_render [.name column] .positive (x := .subquery q) h
  | list items =>
    have hitems := Membership.appends_render [.name column] .positive (x := .members items) h
    rw [Candidates.map_members, Candidates.map_members] at hitems
    rw [map_list, map_list]
    exact hitems

namespace Condition

/-- Operands bind in turn, also those that are left out as empty. -/
theorem appends_renderOperands (j : Junction) {operands : List S}
    (h : ∀ t ∈ operands, Appends d.options.placeholder (g t) (f t)) :
    Appends d.options.placeholder (operands.map g).flatten
      (renderOperands j (operands.map f)) := by
  -- The numbers of the operands matter to errors only.
  have hvalues : (operands.map g).flatten = (operands.zipIdx.map Prod.fst).flatMap g := by
    rw [List.zipIdx_map_fst]
    rfl
  have hnumbered : (operands.map f).zipIdx = operands.zipIdx.map fun e => (f e.1, e.2) := by
    rw [List.zipIdx_map]
    rfl
  rw [renderOperands, hnumbered, hvalues]
  apply Appends.mapM
  intro e he
  have hoperand := h e.1 (List.fst_mem_of_mem_zipIdx he)
  exact hoperand.within _

/-- The column binds once, before all patterns. -/
theorem appends_renderAll (column : Column S) (operator : LikeOperator) (escaping : Escaping)
    {patterns : List (Pattern S)}
    (hcolumn : ∀ t ∈ column.nested, Appends d.options.placeholder (g t) (f t))
    (hpatterns : ∀ p ∈ patterns, ∀ t ∈ p.nested, Appends d.options.placeholder (g t) (f t)) :
    Appends d.options.placeholder
      ((pattern (column.map g) operator (patterns.map (·.map g)) escaping).values d.options)
      (Pattern.renderAll d (column.map f) operator escaping (patterns.map (·.map f))) := by
  cases patterns with
  | nil => exact .pure _
  | cons p ps =>
    have htexts : ∀ p' ∈ p :: ps, Appends d.options.placeholder
        ((p'.map g).values (d.options.escapeTable escaping))
        ((p'.map f).render d (d.options.escapeTable escaping)) :=
      fun p' hp' => Pattern.appends_render _ (hpatterns p' hp')
    apply Appends.bind (Column.appends_render hcolumn)
    intro text
    exact (Appends.mapM htexts).map _

/-- **A node binds its values** if what stands in it binds its own. -/
theorem appends_render (c : Condition S)
    (h : ∀ t ∈ c.nested, Appends d.options.placeholder (g t) (f t)) :
    Appends d.options.placeholder ((c.map g).values d.options) ((c.map f).render d) := by
  -- The values of a node are listed in the order in which its parts are written.
  cases c with
  | hash entries =>
    rw [map_hash, map_hash]
    have hentries : ∀ e ∈ entries,
        Appends d.options.placeholder ((e.2.map g).values e.1) ((e.2.map f).render d e.1) := by
      intro e he
      apply HashTest.appends_render e.1
      intro t ht
      exact h t (List.mem_flatMap.2 ⟨e, he, ht⟩)
    exact (Appends.mapM hentries).map _
  | comparison column operator value =>
    obtain ⟨hcolumn, hvalue⟩ := List.forall_mem_append.1 h
    apply Appends.bind (Column.appends_render hcolumn)
    intro x
    exact (Scalar.appends_render hvalue).map _
  | membership columns polarity candidates => exact Membership.appends_render columns polarity h
  | between column polarity low high =>
    obtain ⟨hcolumn, hbounds⟩ := List.forall_mem_append.1 h
    obtain ⟨hlow, hhigh⟩ := List.forall_mem_append.1 hbounds
    apply Appends.bind (Column.appends_render hcolumn)
    intro x
    apply Appends.bind (Scalar.appends_render hlow)
    intro y
    exact (Scalar.appends_render hhigh).map _
  | betweenColumns value polarity low high =>
    obtain ⟨hvalue, hbounds⟩ := List.forall_mem_append.1 h
    obtain ⟨hlow, hhigh⟩ := List.forall_mem_append.1 hbounds
    apply Appends.bind (Scalar.appends_render hvalue)
    intro x
    apply Appends.bind (Column.appends_render hlow)
    intro y
    exact (Column.appends_render hhigh).map _
  | pattern column operator patterns escaping =>
    rw [map_pattern, map_pattern]
    obtain ⟨hcolumn, hpatterns⟩ := List.forall_mem_append.1 h
    apply appends_renderAll column operator escaping hcolumn
    intro p hp t ht
    exact hpatterns t (List.mem_flatMap.2 ⟨p, hp, ht⟩)
  | negation inner =>
    have hinner := h inner (List.mem_singleton.2 rfl)
    exact (hinner.within .negated).map _
  | junction operator operands =>
    rw [map_junction, map_junction]
    exact (appends_renderOperands operator h).map _
  | existence polarity q => exact (Subquery.appends_render h).map _

end Condition

/-! ### Specifications -/

/-- The induction is on the levels of the specification, with the values of a level known from
those of the next. -/
theorem Spec.appends_compile (c : Compiler) (s : Spec) :
    Appends c.dialect.options.placeholder (s.values c) (s.compile c) := by
  induction s using Spec.induction_read c.registry with
  | step s ih =>
    rw [compile_eq, values_eq]
    cases hr : s.read c.registry with
    | text sql => exact .pure sql
    | failed e => exact .fail e
    | node x =>
      rw [hr] at ih
      exact Condition.appends_render x ih

namespace Sink

/-- What bindings add to a sink. -/
def Gains (s t : Sink) (vs : List Value) : Prop :=
  ∃ new, t.entries = s.entries ++ new ∧ new.map (·.2) = vs

/-- Bindings add an entry for each value, in order, under whatever names. -/
theorem gains_bindAll (style : PlaceholderStyle) (vs : List Value) (s : Sink) :
    s.Gains (s.bindAll style vs) vs := by
  induction vs generalizing s with
  | nil => exact ⟨[], (List.append_nil _).symm, rfl⟩
  | cons v vs ih =>
    obtain ⟨new, hnew, hvalues⟩ := ih (s.bind style v).2
    refine ⟨(s.nextName style, v) :: new, ?_, congrArg (v :: ·) hvalues⟩
    show ((s.bind style v).2.bindAll style vs).entries = _
    rw [hnew, bind_eq, entries_append, List.append_assoc, List.singleton_append]

end Sink

namespace Compiler

/-- **No value is lost, doubled or moved.**  A specification that compiles, and a
condition that is built, has added its values to the sink, in their order. -/
theorem values_compileInto (c : Compiler) (sink sink' : Sink) (sql : String) :
    (∀ s : Spec, c.compileInto s sink = (.ok sql, sink') → sink.Gains sink' (s.values c)) ∧
      ∀ x : Condition Spec, c.build x sink = (.ok sql, sink') →
        sink.Gains sink' ((x.map (Spec.values c)).values c.dialect.options) := by
  constructor
  · intro s hrun
    rw [Spec.appends_compile c s sink sql sink' hrun]
    exact Sink.gains_bindAll _ _ _
  · intro x hrun
    have hbound := Condition.appends_render x (fun s _ => Spec.appends_compile c s) sink sql sink'
    rw [hbound hrun]
    exact Sink.gains_bindAll _ _ _

/-- The filter of a sub-query binds before the value that the sub-query is compared with. -/
theorem values_compileInto_subquery :
    let c : Compiler := ⟨⟨.standard, QuoteStyle.bare.quoter⟩, .empty⟩
    let filter : Spec := .condition (.comparison (.name "a") ⟨"=", by decide⟩ (.value (.int 1)))
    let x : Condition Spec :=
      .comparison (.subquery (.select "t" ["n"] (some filter))) ⟨">", by decide⟩ (.value (.int 2))
    let sink : Sink := ⟨[("p0", .int 1), ("p1", .int 2)]⟩
    let sql := "(SELECT n FROM t WHERE a = :p0) > :p1"
    c.compileInto (.condition x) .empty = (.ok sql, sink) ∧
      Sink.empty.Gains sink ((Spec.condition x).values c) ∧ c.build x .empty = (.ok sql, sink) ∧
      Sink.empty.Gains sink ((x.map (Spec.values c)).values c.dialect.options) := by
  intro c filter x sink sql
  have hfilter : filter.compile c = Condition.render c.dialect
      (.comparison (.name "a") ⟨"=", by decide⟩ (.value (.int 1))) :=
    Spec.compile_eq _ _
  have hbuild : c.build x .empty = (.ok sql, sink) := by
    show Condition.render c.dialect (.comparison
      (.subquery (.select "t" ["n"] (some (filter.compile c)))) ⟨">", by decide⟩
      (.value (.int 2))) .empty = _
    rw [hfilter]
    subst c sink sql
    rfl
  have hcompile : c.compileInto (.condition x) .empty = (.ok sql, sink) := by
    rw [compileInto, Spec.compile_eq]
    exact hbuild
  exact ⟨hcompile, (values_compileInto c _ _ _).1 _ hcompile, hbuild,
    (values_compileInto c _ _ _).2 _ hbuild⟩

end Compiler

end WhereClause
