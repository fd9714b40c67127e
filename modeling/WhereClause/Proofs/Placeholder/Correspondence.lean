/-
WhereClause/Proofs/Placeholder/Correspondence.lean

Placeholders in the text and entries in the sink correspond.  Every step writes
the parts of its text in the order in which it bound them, and what it writes
around them ends a name and begins none; so the placeholders of a text, read from
left to right, are the entries that were added for it.  Only the column of a
pattern test is written more than once.

Main results: each node corresponds if what stands in it does
(`Dialect.IsPlain.condition`), and so do specifications whose own words are clear
(`Compiler.placeholders_compileInto`).
-/
import WhereClause.Proofs.Placeholder.Text
import WhereClause.Proofs.Placeholder.Trace
import WhereClause.Proofs.Render.Runs

namespace WhereClause

/-! ### Steps and what they write -/

namespace Render

variable {α β : Type} {reason : Sink → Sink → String → Prop}

/-- A step that, after the placeholders `before`, goes on to those of its result. -/
def Extends (reason : Sink → Sink → String → Prop) (before : List String) (w : α → List String)
    (x : Render α) : Prop :=
  ∀ s t a u, Traces reason s before t → x t = (.ok a, u) → Traces reason s (w a) u

/-- A step that writes the placeholders of its result. -/
def Writes (reason : Sink → Sink → String → Prop) (w : α → List String) (x : Render α) : Prop :=
  ∀ s a t, x s = (.ok a, t) → Traces reason s (w a) t

/-- A step that goes on from nothing writes what is in its result. -/
theorem Extends.writes {w : α → List String} {x : Render α} (h : Extends reason [] w x) :
    Writes reason w x :=
  fun s a t hrun => h s s a t (.nil s) hrun

/-- The last step puts together what was written before, so its placeholders have to be those.
-/
theorem Extends.pure {before : List String} {w : α → List String} {a : α} (h : w a = before) :
    Extends reason before w (Pure.pure a) := by
  intro s t a' u ht hrun
  obtain ⟨rfl, rfl⟩ := pure_eq_ok.1 hrun
  rwa [h]

/-- The placeholders of a step come after those before it, and the rest goes on from there. -/
theorem Extends.bind {before : List String} {wx : α → List String} {w : β → List String}
    {x : Render α} {f : α → Render β} (hx : Writes reason wx x)
    (hf : ∀ a, Extends reason (before ++ wx a) w (f a)) : Extends reason before w (x >>= f) := by
  intro s t b u ht hrun
  obtain ⟨a, t', hx', hf'⟩ := bind_eq_ok.1 hrun
  exact hf a s t' b u (ht.append (hx t a t' hx')) hf'

/-- A text without placeholders has bound nothing. -/
theorem Writes.pure {w : α → List String} {a : α} (h : w a = []) :
    Writes reason w (Pure.pure a) :=
  (Extends.pure h).writes

/-- A step that fails writes nothing, so nothing is asked of it. -/
theorem Writes.fail {w : α → List String} (e : Error) : Writes reason w (fail e : Render α) := by
  intro s a t hrun
  exact absurd hrun (by simp [Render.fail])

/-- A step, and what goes on from it. -/
theorem Writes.bind {wx : α → List String} {w : β → List String} {x : Render α}
    {f : α → Render β} (hx : Writes reason wx x) (hf : ∀ a, Extends reason (wx a) w (f a)) :
    Writes reason w (x >>= f) :=
  (Extends.bind hx hf).writes

/-- A place is put before errors only. -/
theorem Writes.within {w : α → List String} {x : Render α} (place : Place)
    (hx : Writes reason w x) : Writes reason w (within place x) :=
  fun s a t hrun => hx s a t (within_eq_ok.1 hrun)

/-- Steps in turn write what is in their results, in turn. -/
theorem Writes.mapM {w : β → List String} {f : α → Render β} {as : List α}
    (h : ∀ a ∈ as, Writes reason w (f a)) :
    Writes reason (fun bs : List β => bs.flatMap w) (as.mapM f) := by
  induction as with
  | nil => exact .pure rfl
  | cons a as ih =>
    obtain ⟨ha, has⟩ := List.forall_mem_cons.1 h
    rw [List.mapM_cons]
    apply Writes.bind ha
    intro b
    apply Extends.bind (ih has)
    intro bs
    exact .pure List.flatMap_cons

end Render

/-! ### Dialects that leave sigils to placeholders -/

/-- A dialect whose placeholders can be told from names, and which brings no sigil
into a name. -/
structure Dialect.IsPlain (d : Dialect) : Prop where
  stem : d.options.placeholder.HasPlainStem
  column : ∀ {name : String}, d.options.placeholder.Clear name →
    d.options.placeholder.Clear (d.columnName name)
  table : ∀ {name : String}, d.options.placeholder.Clear name →
    d.options.placeholder.Clear (d.tableName name)

/-- Quoting brings no sigil into a name, whatever the style. -/
theorem QuoteStyle.isPlain {o : Options} (h : o.placeholder.HasPlainStem) (q : QuoteStyle) :
    Dialect.IsPlain ⟨o, q.quoter⟩ :=
  ⟨h, fun hname => hname.column q, fun hname => hname.table q⟩

namespace Dialect.IsPlain

open Render PlaceholderStyle

variable {d : Dialect} (hd : d.IsPlain) {reason : Sink → Sink → String → Prop}

include hd

/-- A value that is bound is answered as its placeholder, and the entry has that name. -/
theorem value (v : Value) : Writes reason d.options.placeholder.placeholders (d.bind v) := by
  intro s sql t hrun
  have hsql : d.options.placeholder.render (s.nextName d.options.placeholder) = sql ∧
      (s.bind d.options.placeholder v).2 = t := by
    simpa [Dialect.bind, Sink.bind_eq] using hrun
  obtain ⟨rfl, rfl⟩ := hsql
  rw [Sink.nextName, placeholders_render hd.stem]
  exact .bind _ v s

/-! ### Sub-queries and the sides of a test -/

/-- The columns of a selection have no sigil in them. -/
theorem columnList {columns : List String}
    (h : ∀ n ∈ columns, d.options.placeholder.Clear n) :
    d.options.placeholder.Clear (Subquery.columnList d columns) := by
  cases columns with
  | nil => exact clear_of_isClear _ (by decide : isClear "*" = true)
  | cons n ns =>
    apply Clear.intercalate (clear_of_isClear _ (by decide))
    intro s hs
    obtain ⟨n', hn', rfl⟩ := List.mem_map.1 hs
    exact hd.column (h n' hn')

/-- A selection has no sigil in what it writes before its filter. -/
theorem selection {table : String} {columns : List String}
    (htable : d.options.placeholder.Clear table)
    (hcolumns : ∀ n ∈ columns, d.options.placeholder.Clear n) :
    d.options.placeholder.Clear
      ("SELECT " ++ Subquery.columnList d columns ++ " FROM " ++ d.tableName table) := by
  have hselect : d.options.placeholder.Clear "SELECT " := clear_of_isClear _ (by decide)
  have hfrom : d.options.placeholder.Clear " FROM " := clear_of_isClear _ (by decide)
  exact ((hselect.append (hd.columnList hcolumns)).append hfrom).append (hd.table htable)

/-- A query writes the placeholders of its filter. A template is excluded, since a caller may
write into it whatever looks like a placeholder. -/
theorem subquery {q : Subquery (Render String)} (hq : q.Clear d.options.placeholder)
    (h : ∀ x ∈ q.nested, Writes reason d.options.placeholder.placeholders x) :
    Writes reason d.options.placeholder.placeholders (q.render d) := by
  match q with
  | .select table columns none =>
    exact .pure (placeholders_of_clear (hd.selection hq.1 hq.2))
  | .select table columns (some filter) =>
    apply Writes.bind (h filter (by simp [Subquery.nested]))
    intro condition
    apply Extends.pure
    rw [placeholders_append_of_clear (hd.selection hq.1 hq.2), placeholders_whereClause]
  | .template parts => exact hq.elim

/-- A scalar writes one placeholder, or none, or those of its query. -/
theorem scalar {x : Scalar (Render String)} (hx : x.Clear d.options.placeholder)
    (h : ∀ y ∈ x.nested, Writes reason d.options.placeholder.placeholders y) :
    Writes reason d.options.placeholder.placeholders (x.render d) := by
  cases x with
  | null => exact .pure (placeholders_of_clear (clear_of_isClear _ (by decide)))
  | value v => exact hd.value v
  | raw sql => exact .pure (placeholders_of_clear hx)
  | subquery q =>
    apply Writes.bind (hd.subquery hx h)
    intro sql
    exact .pure (placeholders_parenthesized sql)

/-- A column writes none, or those of its query. -/
theorem columnSide {c : Column (Render String)} (hc : c.Clear d.options.placeholder)
    (h : ∀ y ∈ c.nested, Writes reason d.options.placeholder.placeholders y) :
    Writes reason d.options.placeholder.placeholders (c.render d) := by
  cases c with
  | name n => exact .pure (placeholders_of_clear (hd.column hc))
  | raw sql => exact .pure (placeholders_of_clear hc)
  | subquery q =>
    apply Writes.bind (hd.subquery hc h)
    intro sql
    exact .pure (placeholders_parenthesized sql)

/-- Plain columns are written without a placeholder. -/
theorem plainColumn {c : PlainColumn} (hc : d.options.placeholder.Clear c.key) :
    d.options.placeholder.Clear (c.text d) := by
  cases c with
  | name n => exact hd.column hc
  | raw sql => exact hc

end Dialect.IsPlain

/-! ### Operands -/

open Render PlaceholderStyle

/-- An operand that is clear and in which every condition writes its placeholders. -/
def Operand.Corresponds (reason : Sink → Sink → String → Prop) (style : PlaceholderStyle)
    (o : Operand (Render String)) : Prop :=
  o.Clear style ∧ ∀ x ∈ o.nested, Writes reason style.placeholders x

namespace Operand

variable {reason : Sink → Sink → String → Prop} {style : PlaceholderStyle}

/-- Each of some members, when it is known of all. -/
theorem corresponds_of_mem {os : List (Operand (Render String))}
    (hos : ∀ o ∈ os, o.Clear style)
    (h : ∀ x ∈ nestedItems os, Writes reason style.placeholders x) {o : Operand (Render String)}
    (ho : o ∈ os) : o.Corresponds reason style :=
  ⟨hos o ho, fun x hx => h x (mem_nestedItems ho hx)⟩

/-- An entry of a row that is clear is clear. -/
theorem Corresponds.of_lookup {es : List (String × Operand (Render String))} {key : String}
    {o : Operand (Render String)} (h : (row es).Corresponds reason style)
    (ho : es.lookup key = some o) : o.Corresponds reason style := by
  have he : (key, o) ∈ es := Keyed.mem_of_lookup ho
  obtain ⟨hclear, hnested⟩ := h
  cases hclear with
  | row hes =>
    refine ⟨hes _ he, fun x hx => hnested x ?_⟩
    rw [nested]
    exact mem_nestedEntries he hx

/-- A member of a list that is clear is clear. -/
theorem Corresponds.of_mem_list {os : List (Operand (Render String))}
    {o : Operand (Render String)} (h : (list os).Corresponds reason style) (ho : o ∈ os) :
    o.Corresponds reason style := by
  obtain ⟨hclear, hnested⟩ := h
  cases hclear with
  | list hos =>
    refine corresponds_of_mem hos (fun x hx => hnested x ?_) ho
    rwa [nested]

/-- What stands under a column is a part of the member. -/
theorem Corresponds.entryUnder {column : PlainColumn} {o o' : Operand (Render String)}
    (h : o.Corresponds reason style) (ho : Membership.entryUnder column o = some o') :
    o'.Corresponds reason style := by
  unfold Membership.entryUnder at ho
  split at ho
  · exact h.of_lookup ho
  · obtain rfl := Option.some.inj ho
    exact h

/-- What stands under several columns are parts of the row. -/
theorem Corresponds.rowEntries {operator : String} {columns : List PlainColumn}
    {o o' : Operand (Render String)} {entries : List (Option (Operand (Render String)))}
    (h : o.Corresponds reason style)
    (hentries : Membership.rowEntries operator columns o = .ok entries)
    (ho' : some o' ∈ entries) : o'.Corresponds reason style := by
  unfold Membership.rowEntries at hentries
  split at hentries
  · cases hentries
    obtain ⟨c, -, hc⟩ := List.mem_map.1 ho'
    exact h.of_lookup hc
  · cases hentries
    obtain ⟨i, -, hi⟩ := List.mem_map.1 ho'
    exact h.of_mem_list (List.mem_of_getElem? hi)
  · exact absurd hentries (by simp)

end Operand

namespace Dialect.IsPlain

variable {d : Dialect} (hd : d.IsPlain) {reason : Sink → Sink → String → Prop}

include hd

/-! ### Membership tests -/

/-- A member writes its placeholder, and null writes none, since it is not among the list. -/
theorem member (operator : String) {m : Option (Operand (Render String))}
    (h : ∀ o ∈ m, o.Corresponds reason d.options.placeholder) :
    Writes reason d.options.placeholder.memberPlaceholders
      (Membership.renderMember d operator m) := by
  cases m with
  | none => exact .pure rfl
  | some o =>
    cases o with
    | scalar x =>
      cases x with
      | null => exact .pure rfl
      | value v => exact .bind (hd.value v) fun sql => .pure rfl
      | raw sql =>
        cases (h _ rfl).1 with
        | scalar hsql => exact .pure (placeholders_of_clear hsql)
      | subquery q => exact .fail _
    | list os => exact .fail _
    | row es => exact .fail _

/-- The form of the test does not change the order of its members. -/
theorem membersOfColumn {column : PlainColumn} (hcolumn : d.options.placeholder.Clear column.key)
    (polarity : Polarity) {members : List (Operand (Render String))}
    (h : ∀ o ∈ members, o.Corresponds reason d.options.placeholder) :
    Writes reason d.options.placeholder.placeholders
      (Membership.renderSingle d column polarity members) := by
  apply Writes.bind
  · apply Writes.mapM (w := d.options.placeholder.memberPlaceholders)
    intro o ho
    exact hd.member (polarity.apply "IN") fun o' ho' => (h o ho).entryUnder ho'
  · intro members
    exact .pure (placeholders_test (hd.plainColumn hcolumn) polarity members)

/-- An entry of a row writes its placeholder, or `NULL`. -/
theorem entry (operator : String) {m : Option (Operand (Render String))}
    (h : ∀ o ∈ m, o.Corresponds reason d.options.placeholder) :
    Writes reason d.options.placeholder.placeholders (Membership.renderEntry d operator m) := by
  cases m with
  | none => exact .pure (placeholders_of_clear (clear_of_isClear _ (by decide)))
  | some o =>
    cases o with
    | scalar x =>
      obtain ⟨hclear, hnested⟩ := h _ rfl
      cases hclear with
      | scalar hx => exact hd.scalar hx fun y hy => hnested y (by rwa [Operand.nested])
    | list os => exact .fail _
    | row es => exact .fail _

/-- A row writes the placeholders of its entries, in the order of the columns. -/
theorem row (operator : String) (columns : List PlainColumn) {o : Operand (Render String)}
    (h : o.Corresponds reason d.options.placeholder) :
    Writes reason d.options.placeholder.placeholders
      (Membership.renderRow d operator columns o) := by
  rw [Membership.renderRow]
  cases hentries : Membership.rowEntries operator columns o with
  | error e => exact .fail e
  | ok entries =>
    have hwrites : Writes reason (fun sqls => sqls.flatMap d.options.placeholder.placeholders)
        (entries.mapM (Membership.renderEntry d operator)) := by
      apply Writes.mapM
      intro m hm
      apply hd.entry operator
      intro o' ho'
      rw [Option.mem_def.1 ho'] at hm
      exact h.rowEntries hentries hm
    show Writes reason _ (entries.mapM (Membership.renderEntry d operator) >>= fun sqls =>
      pure (parenthesized (", ".intercalate sqls)))
    apply Writes.bind hwrites
    intro sqls
    exact .pure (placeholders_list sqls)

/-- The columns of a test have no sigil in them. -/
theorem columnsText {columns : List PlainColumn}
    (h : ∀ c ∈ columns, d.options.placeholder.Clear c.key) :
    d.options.placeholder.Clear (Membership.columnsText d columns) := by
  unfold Membership.columnsText
  split
  · next c => exact hd.plainColumn (h c (by simp))
  · have hcolumns : d.options.placeholder.Clear (", ".intercalate (columns.map (·.text d))) := by
      apply Clear.intercalate (clear_of_isClear _ (by decide))
      intro s hs
      obtain ⟨c, hc, rfl⟩ := List.mem_map.1 hs
      exact hd.plainColumn (h c hc)
    have hopen : d.options.placeholder.Clear "(" := clear_of_isClear _ (by decide)
    exact (hopen.append hcolumns).append (clear_of_isClear _ (by decide))

/-- What stands before a list or a sub-query. -/
theorem membershipHead {columns : List PlainColumn} (polarity : Polarity)
    (h : ∀ c ∈ columns, d.options.placeholder.Clear c.key) :
    d.options.placeholder.Clear
      (Membership.columnsText d columns ++ " " ++ polarity.apply "IN" ++ " ") := by
  have hspace : d.options.placeholder.Clear " " := clear_of_isClear _ (by decide)
  have hoperator : d.options.placeholder.Clear (polarity.apply "IN") :=
    clear_polarity _ polarity (clear_of_isClear _ (by decide))
  exact (((hd.columnsText h).append hspace).append hoperator).append hspace

/-- Rows are written in turn. -/
theorem rows {columns : List PlainColumn}
    (hcolumns : ∀ c ∈ columns, d.options.placeholder.Clear c.key) (polarity : Polarity)
    {rows : List (Operand (Render String))}
    (h : ∀ o ∈ rows, o.Corresponds reason d.options.placeholder) :
    Writes reason d.options.placeholder.placeholders
      (Membership.renderRows d columns polarity rows) := by
  refine .bind (.mapM fun o ho => hd.row (polarity.apply "IN") columns (h o ho)) fun sqls =>
    .pure ?_
  rw [placeholders_append_of_clear (hd.membershipHead polarity hcolumns), placeholders_list]

/-- **A test of membership writes its placeholders** in the order of its members, and the
columns come before all of them. -/
theorem membership {columns : List PlainColumn}
    (hcolumns : ∀ c ∈ columns, d.options.placeholder.Clear c.key) (polarity : Polarity)
    {candidates : Candidates (Render String)} (hc : candidates.Clear d.options.placeholder)
    (h : ∀ x ∈ candidates.nested, Writes reason d.options.placeholder.placeholders x) :
    Writes reason d.options.placeholder.placeholders
      (Membership.render d columns polarity candidates) := by
  have hnothing : Writes reason d.options.placeholder.placeholders
      (pure polarity.overNothing : Render String) :=
    .pure (placeholders_of_clear (clear_overNothing _ polarity))
  unfold Membership.render
  split
  · next q =>
    split
    · exact hnothing
    · refine .bind (hd.subquery hc h) fun sql => .pure ?_
      rw [placeholders_append_of_clear (hd.membershipHead polarity hcolumns),
        placeholders_parenthesized]
  · exact hnothing
  · next members _ =>
    have hmembers : ∀ o ∈ members, o.Corresponds reason d.options.placeholder :=
      fun o ho => Operand.corresponds_of_mem hc h ho
    split
    · exact hnothing
    · next column => exact hd.membersOfColumn (hcolumns column (by simp)) polarity hmembers
    · exact hd.rows hcolumns polarity hmembers

/-! ### Hashes -/

/-- The test of an entry writes one placeholder or none, or is a test of membership. -/
theorem hashTest {column : String} (hcolumn : d.options.placeholder.Clear column)
    {e : HashTest (Render String)} (he : e.Clear d.options.placeholder)
    (h : ∀ x ∈ e.nested, Writes reason d.options.placeholder.placeholders x) :
    Writes reason d.options.placeholder.placeholders (e.render d column) := by
  -- Lists and sub-queries are tested as members of the column are.
  have hcolumns : ∀ c ∈ [PlainColumn.name column], d.options.placeholder.Clear c.key := by
    intro c hc
    rw [List.mem_singleton] at hc
    subst hc
    exact hcolumn
  have hname := hd.column hcolumn
  cases e with
  | list items =>
    have hitems : (Candidates.members items).Clear d.options.placeholder := he
    exact hd.membership hcolumns .positive hitems h
  | scalar x =>
    cases x with
    | null =>
      exact .pure (placeholders_of_clear (hname.append (clear_of_isClear _ (by decide))))
    | value v =>
      refine .bind (hd.value v) fun sql => .pure ?_
      rw [placeholders_append_of_clear (hname.append (clear_of_isClear _ (by decide)))]
    | raw sql =>
      exact .pure (placeholders_of_clear
        ((hname.append (clear_of_isClear _ (by decide))).append he))
    | subquery q =>
      have hq : (Candidates.subquery q).Clear d.options.placeholder := he
      exact hd.membership hcolumns .positive hq h

/-! ### Pattern tests -/

/-- The placeholder of a pattern is bound where it is written. -/
theorem pattern (table : Option (List (Char × String))) {p : Pattern (Render String)}
    (hp : p.Clear d.options.placeholder)
    (h : ∀ x ∈ p.nested, Writes reason d.options.placeholder.placeholders x) :
    Writes reason d.options.placeholder.placeholders (p.render d table) := by
  cases p with
  | text s => exact hd.value _
  | raw sql => exact .pure (placeholders_of_clear hp)
  | subquery q =>
    exact .bind (hd.subquery hp h) fun sql => .pure (placeholders_parenthesized sql)

omit hd in
/-- Clauses after a first one.  Each begins with the column again, whose placeholders
have been written already; there must be a reason for that. -/
theorem traces_clauses {w : String → List String} {f : Pattern (Render String) → Render String}
    {patterns : List (Pattern (Render String))} (h : ∀ p ∈ patterns, Writes reason w (f p))
    {s t u : Sink} {written column sqls : List String} (ht : Traces reason s written t)
    (hcolumn : ∀ n ∈ column, n ∈ written)
    (hreason : patterns ≠ [] → ∀ n ∈ column, ∃ a b, s.entries <+: a.entries ∧
      b.entries <+: t.entries ∧ reason a b n)
    (hrun : patterns.mapM f t = (.ok sqls, u)) :
    Traces reason s (written ++ sqls.flatMap fun sql => column ++ w sql) u := by
  induction patterns generalizing t written sqls with
  | nil =>
    obtain ⟨rfl, rfl⟩ := pure_eq_ok.1 hrun
    simpa using ht
  | cons p ps ih =>
    rw [List.mapM_cons] at hrun
    obtain ⟨sql, t', hp, hrun⟩ := bind_eq_ok.1 hrun
    obtain ⟨sqls', u', hps, hrun⟩ := bind_eq_ok.1 hrun
    obtain ⟨rfl, rfl⟩ := pure_eq_ok.1 hrun
    -- First the column once more, then what the pattern adds.
    have hagain := ht.again hcolumn (hreason (by simp))
    have hnext := hagain.append (h p (by simp) t sql t' hp)
    have hrest := ih (fun p' hp' => h p' (by simp [hp'])) hnext
      (fun n hn => by simp [hn]) (fun _ n hn => ?_) hps
    · rw [List.flatMap_cons]
      simpa only [List.append_assoc] using hrest
    · obtain ⟨a, b, ha, hb, hab⟩ := hreason (by simp) n hn
      exact ⟨a, b, ha, hb.trans (h p (by simp) t sql t' hp).prefix_entries, hab⟩

/-- The column is bound once and stands in each clause; from the second clause on its
placeholders are repeated, for the reason that is asked for. -/
theorem patterns {column : Column (Render String)} (hc : column.Clear d.options.placeholder)
    (hcolumn : ∀ x ∈ column.nested, Writes reason d.options.placeholder.placeholders x)
    (operator : LikeOperator) (escaping : Escaping) {patterns : List (Pattern (Render String))}
    (hps : ∀ p ∈ patterns, p.Clear d.options.placeholder)
    (h : ∀ p ∈ patterns, ∀ x ∈ p.nested,
      Writes reason d.options.placeholder.placeholders x)
    (hreason : 2 ≤ patterns.length → ∀ q, column = .subquery q → ∀ s sql t,
      q.render d s = (.ok sql, t) → ∀ n ∈ t.names, n ∉ s.names → reason s t n) :
    Writes reason d.options.placeholder.placeholders
      (Pattern.renderAll d column operator escaping patterns) := by
  cases patterns with
  | nil => exact .pure (placeholders_of_clear (clear_overNothing _ _))
  | cons p ps =>
    intro s sql u hrun
    obtain ⟨text, t, hct, hrun⟩ := bind_eq_ok.1 hrun
    obtain ⟨sqls, u', hps', hrun⟩ := bind_eq_ok.1 hrun
    obtain ⟨rfl, rfl⟩ := pure_eq_ok.1 hrun
    rw [List.mapM_cons] at hps'
    obtain ⟨first, t', hfirst, hps'⟩ := bind_eq_ok.1 hps'
    obtain ⟨rest, u'', hrest, hps'⟩ := bind_eq_ok.1 hps'
    obtain ⟨rfl, rfl⟩ := pure_eq_ok.1 hps'
    have hwrites : ∀ p' ∈ p :: ps, Writes reason d.options.placeholder.placeholders
        (p'.render d (d.options.escapeTable escaping)) :=
      fun p' hp' => hd.pattern _ (hps p' hp') (h p' hp')
    have htext := hd.columnSide hc hcolumn s text t hct
    have hclause := htext.append (hwrites p (by simp) t first t' hfirst)
    -- The first clause writes the column as it was bound; the others repeat it.
    rw [placeholders_clauses, List.flatMap_cons]
    refine traces_clauses (fun p' hp' => hwrites p' (by simp [hp'])) hclause
      (fun n hn => List.mem_append_left _ hn) (fun hne n hn => ?_) hrest
    -- A placeholder of the column was bound for its sub-query, and there are more patterns.
    cases column with
    | name name =>
      obtain ⟨rfl, rfl⟩ := pure_eq_ok.1 hct
      rw [placeholders_of_clear (hd.column hc)] at hn
      exact absurd hn (by simp)
    | raw sql =>
      obtain ⟨rfl, rfl⟩ := pure_eq_ok.1 hct
      rw [placeholders_of_clear hc] at hn
      exact absurd hn (by simp)
    | subquery q =>
      obtain ⟨sql, t₁, hq, hpure⟩ := bind_eq_ok.1 hct
      obtain ⟨-, rfl⟩ := pure_eq_ok.1 hpure
      have hlength : 2 ≤ (p :: ps).length := by
        have := List.length_pos_iff.2 hne
        rw [List.length_cons]
        omega
      exact ⟨s, t₁, List.prefix_refl _, (hwrites p (by simp) t₁ first t' hfirst).prefix_entries,
        hreason hlength q rfl s sql t₁ hq n (htext.mem_names hn) (htext.fresh n hn)⟩

/-! ### Conditions -/

/-- **Each node writes its placeholders** if what stands in it does, provided that
there is a reason for those of a sub-query that several patterns are tested against. -/
theorem condition {c : Condition (Render String)} (hc : c.Clear d.options.placeholder)
    (h : ∀ x ∈ c.nested, Writes reason d.options.placeholder.placeholders x)
    (hreason : ∀ q operator patterns escaping,
      c = .pattern (.subquery q) operator patterns escaping → 2 ≤ patterns.length →
        ∀ s sql t, q.render d s = (.ok sql, t) → ∀ n ∈ t.names, n ∉ s.names → reason s t n) :
    Writes reason d.options.placeholder.placeholders (c.render d) := by
  cases c with
  | hash entries =>
    apply Writes.bind
    · apply Writes.mapM (w := d.options.placeholder.placeholders)
      intro e he
      obtain ⟨hname, htest⟩ := hc e he
      exact hd.hashTest hname htest fun x hx => h x (List.mem_flatMap.2 ⟨e, he, hx⟩)
    · intro sqls
      exact .pure (placeholders_join .and sqls)
  | comparison column operator value =>
    have hcolumn := hd.columnSide hc.1 fun x hx => h x (List.mem_append_left _ hx)
    have hvalue := hd.scalar hc.2 fun y hy => h y (List.mem_append_right _ hy)
    apply Writes.bind hcolumn
    intro x
    apply Extends.bind hvalue
    intro y
    exact .pure (placeholders_operator (operator.clear_text _) x y)
  | membership columns polarity candidates => exact hd.membership hc.1 polarity hc.2 h
  | between column polarity low high =>
    obtain ⟨hcolumn, hlow, hhigh⟩ := hc
    have hnested : ∀ x ∈ low.nested ++ high.nested, Writes reason _ x :=
      fun x hx => h x (List.mem_append_right _ hx)
    have hcolumn := hd.columnSide hcolumn fun x hx => h x (List.mem_append_left _ hx)
    have hlow := hd.scalar hlow fun y hy => hnested y (List.mem_append_left _ hy)
    have hhigh := hd.scalar hhigh fun z hz => hnested z (List.mem_append_right _ hz)
    apply Writes.bind hcolumn
    intro x
    apply Extends.bind hlow
    intro y
    apply Extends.bind hhigh
    intro z
    exact .pure (placeholders_between polarity x y z)
  | betweenColumns value polarity low high =>
    obtain ⟨hvalue, hlow, hhigh⟩ := hc
    have hnested : ∀ x ∈ low.nested ++ high.nested, Writes reason _ x :=
      fun x hx => h x (List.mem_append_right _ hx)
    have hvalue := hd.scalar hvalue fun x hx => h x (List.mem_append_left _ hx)
    have hlow := hd.columnSide hlow fun y hy => hnested y (List.mem_append_left _ hy)
    have hhigh := hd.columnSide hhigh fun z hz => hnested z (List.mem_append_right _ hz)
    apply Writes.bind hvalue
    intro x
    apply Extends.bind hlow
    intro y
    apply Extends.bind hhigh
    intro z
    exact .pure (placeholders_between polarity x y z)
  | pattern column operator patterns escaping =>
    have hcolumn : ∀ x ∈ column.nested, Writes reason _ x :=
      fun x hx => h x (List.mem_append_left _ hx)
    have hpatterns : ∀ p ∈ patterns, ∀ x ∈ p.nested, Writes reason _ x :=
      fun p hp x hx => h x (List.mem_append_right _ (List.mem_flatMap.2 ⟨p, hp, hx⟩))
    apply hd.patterns hc.1 hcolumn operator escaping hc.2 hpatterns
    rintro hlength q rfl s sql t hrun n hn hnew
    exact hreason q operator patterns escaping rfl hlength s sql t hrun n hn hnew
  | negation inner =>
    have hinner := h inner (List.mem_singleton_self inner)
    apply Writes.bind (hinner.within .negated)
    intro sql
    exact .pure (placeholders_negated sql)
  | junction j operands =>
    apply Writes.bind
    · apply Writes.mapM (w := d.options.placeholder.placeholders)
      intro e he
      have hoperand := h e.1 (List.fst_mem_of_mem_zipIdx he)
      exact hoperand.within _
    · intro sqls
      apply Extends.pure
      -- Operands that are left out are empty, so they have no placeholders.
      rw [placeholders_join, flatMap_placeholders_filter]
  | existence polarity q =>
    apply Writes.bind (hd.subquery hc h)
    intro sql
    exact .pure (placeholders_existence polarity sql)

end Dialect.IsPlain

/-! ### Specifications -/

/-- Only a pattern test with a sub-query as its column becomes one. -/
theorem Condition.eq_pattern_of_map_eq {S T : Type} {f : S → T} {x : Condition S} {q : Subquery T}
    {operator : LikeOperator} {patterns : List (Pattern T)} {escaping : Escaping}
    (h : x.map f = .pattern (.subquery q) operator patterns escaping) :
    ∃ q₀ patterns₀, x = .pattern (.subquery q₀) operator patterns₀ escaping ∧ q₀.map f = q ∧
      patterns₀.map (Pattern.map f) = patterns := by
  cases x with
  | pattern column operator' patterns₀ escaping' =>
    rw [map_pattern] at h
    injection h with hcolumn hoperator hpatterns hescaping
    subst hoperator hescaping
    cases column with
    | subquery q₀ =>
      injection hcolumn with hq
      exact ⟨q₀, patterns₀, rfl, hq, hpatterns⟩
    | name n => exact absurd hcolumn (by simp [Column.map, Column.pmap])
    | raw sql => exact absurd hcolumn (by simp [Column.map, Column.pmap])
  | hash entries =>
    rw [map_hash] at h
    exact absurd h (by simp)
  | junction j operands =>
    rw [map_junction] at h
    exact absurd h (by simp)
  | comparison column operator value => exact absurd h (by simp)
  | membership columns polarity candidates => exact absurd h (by simp)
  | between column polarity low high => exact absurd h (by simp)
  | betweenColumns value polarity low high => exact absurd h (by simp)
  | negation inner => exact absurd h (by simp)
  | existence polarity q => exact absurd h (by simp)

namespace Compiler

/-- From `a` to `b` a sub-query was written that `s` has as the column of a test
against several patterns, and `n` was bound for it. -/
def BindsForPatterns (c : Compiler) (s : Spec) (a b : Sink) (n : String) : Prop :=
  ∃ q operator patterns escaping sql,
    s.HasNode c.registry (.pattern (.subquery q) operator patterns escaping) ∧
      2 ≤ patterns.length ∧ (q.map (Spec.compile c)).render c.dialect a = (.ok sql, b) ∧
      n ∈ b.names ∧ n ∉ a.names

/-- The nodes of `s` are among those of `s₀`, the specification as a whole. -/
theorem writes_compile {c : Compiler} (hc : c.dialect.IsPlain) (s₀ s : Spec)
    (hs : s.Clear c.registry c.dialect.options.placeholder)
    (hnode : ∀ x, s.HasNode c.registry x → s₀.HasNode c.registry x) :
    Writes (c.BindsForPatterns s₀) c.dialect.options.placeholder.placeholders (s.compile c) := by
  induction s using Spec.induction_read c.registry with
  | step s ih =>
    obtain ⟨hclear, hnested⟩ := hs
    rw [Spec.compile_eq]
    have hhere : ∀ x, s.read c.registry = .node x → s₀.HasNode c.registry x :=
      fun x hx => hnode x (.here hx)
    have hwrites : ∀ t ∈ (s.read c.registry).nested,
        Writes (c.BindsForPatterns s₀) c.dialect.options.placeholder.placeholders (t.compile c) :=
      fun t ht => ih t ht (hnested t ht) fun x hx => hnode x (.inner ht hx)
    cases hr : s.read c.registry with
    | text sql =>
      rw [hr] at hclear
      exact .pure (placeholders_of_clear hclear)
    | failed e => exact .fail e
    | node x =>
      rw [hr] at hclear hwrites
      refine hc.condition (c := x.map (Spec.compile c)) (Condition.Clear.map _ hclear) ?_ ?_
      · intro y hy
        rw [Condition.nested_map] at hy
        obtain ⟨t, ht, rfl⟩ := List.mem_map.1 hy
        exact hwrites t ht
      · -- A sub-query that is tested against several patterns is itself the reason.
        intro q operator patterns escaping hx hlength a sql b hrun n hn hnew
        obtain ⟨q₀, patterns₀, rfl, rfl, rfl⟩ := Condition.eq_pattern_of_map_eq hx
        rw [List.length_map] at hlength
        exact ⟨q₀, operator, patterns₀, escaping, sql, hhere _ hr, hlength, hrun, hn, hnew⟩

/-- **Placeholders and entries correspond.**  When no name and no raw text can be
taken for a placeholder, the placeholders of the text, each where it comes first,
are the entries that were added, in their order.  One that comes again was bound
for a sub-query that is the column of a test against several patterns. -/
theorem placeholders_compileInto (o : Options) (quotes : QuoteStyle) (r : Registry) (s : Spec)
    (sink sink' : Sink) (sql : String) (hstem : o.placeholder.HasPlainStem)
    (hclear : s.Clear r o.placeholder)
    (hrun : compileInto ⟨⟨o, quotes.quoter⟩, r⟩ s sink = (.ok sql, sink')) :
    (∃ added, sink'.entries = sink.entries ++ added ∧
        (o.placeholder.placeholders sql).eraseDups = added.map (·.1)) ∧
      ∀ n, 1 < (o.placeholder.placeholders sql).count n →
        ∃ a b, sink.entries <+: a.entries ∧ b.entries <+: sink'.entries ∧
          BindsForPatterns ⟨⟨o, quotes.quoter⟩, r⟩ s a b n := by
  have hwrites := writes_compile (c := ⟨⟨o, quotes.quoter⟩, r⟩) (QuoteStyle.isPlain hstem quotes)
    s s hclear (fun _ hx => hx)
  have htraces := hwrites sink sql sink' hrun
  exact ⟨htraces.added, htraces.repeated⟩

/-- The sub-query before `LIKE` is written once for each pattern, and its placeholder
with it. -/
theorem placeholders_compileInto_patterns :
    let c : Compiler := ⟨⟨.standard, QuoteStyle.bare.quoter⟩, .empty⟩
    let filter : Spec := .condition (.comparison (.name "b") ⟨"=", by decide⟩ (.value (.int 1)))
    let s : Spec := .condition (.pattern (.subquery (.select "t" ["a"] (some filter)))
      ⟨.and, .positive, false⟩ [.text "x", .text "y"] .disabled)
    let sql :=
      "(SELECT a FROM t WHERE b = :p0) LIKE :p1 AND (SELECT a FROM t WHERE b = :p0) LIKE :p2"
    let sink : Sink := ⟨[("p0", .int 1), ("p1", .text "x"), ("p2", .text "y")]⟩
    s.Clear .empty (.named "p") ∧ c.compileInto s .empty = (.ok sql, sink) ∧
      (PlaceholderStyle.placeholders (.named "p") sql).eraseDups = ["p0", "p1", "p2"] ∧
      ∃ a b, c.BindsForPatterns s a b "p0" := by
  intro c filter s sql sink
  have hfilter : filter.compile c = Condition.render c.dialect
      (.comparison (.name "b") ⟨"=", by decide⟩ (.value (.int 1))) :=
    Spec.compile_eq _ _
  have hrun : c.compileInto s .empty = (.ok sql, sink) := by
    rw [Compiler.compileInto, Spec.compile_eq]
    show Condition.render c.dialect (.pattern
      (.subquery (.select "t" ["a"] (some (filter.compile c)))) ⟨.and, .positive, false⟩
      [.text "x", .text "y"] .disabled) .empty = _
    rw [hfilter]
    subst c sql sink
    rfl
  have hinner : filter.Clear .empty (.named "p") := by
    refine .intro ⟨clear_of_isClear _ (by decide), trivial⟩ fun t ht => ?_
    exact absurd ht (by simp [filter, Spec.read, Reading.nested, Condition.nested,
      Column.nested, Scalar.nested])
  have hclear : s.Clear .empty (.named "p") := by
    refine .intro ⟨⟨clear_of_isClear _ (by decide), fun n hn => ?_⟩, fun p hp => ?_⟩ fun t ht => ?_
    · rw [List.mem_singleton.1 hn]
      exact clear_of_isClear _ (by decide)
    · rcases List.mem_pair.1 hp with rfl | rfl <;> trivial
    · obtain rfl : t = filter := by
        simpa [s, Spec.read, Reading.nested, Condition.nested, Column.nested, Pattern.nested,
          Subquery.nested] using ht
      exact hinner
  obtain ⟨⟨added, hadded, hnames⟩, hrepeated⟩ :=
    placeholders_compileInto .standard .bare .empty s .empty sink sql
      (by decide : isStem "p" = true) hclear hrun
  refine ⟨hclear, hrun, ?_, ?_⟩
  · obtain rfl : sink.entries = added := hadded
    exact hnames
  · obtain ⟨a, b, -, -, h⟩ := hrepeated "p0" (by decide +kernel)
    exact ⟨a, b, h⟩

end Compiler

end WhereClause
