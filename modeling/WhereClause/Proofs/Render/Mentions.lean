/-
WhereClause/Proofs/Render/Mentions.lean

The words of a condition.  Besides punctuation, keywords, placeholders and the literal
of `ESCAPE` nothing is written for a node but the names and the raw SQL that stand in
it, and its operator if it is a comparison.

Main result: a node is written in its own words and in those of the conditions that
stand in it, given that these are (`Condition.says_render`).
-/
import WhereClause.Compiler
import WhereClause.Proofs.Render.Words

namespace WhereClause

open Render

section

variable {S : Type} (G : S → Word → Prop)

/-! ### Words of conditions

Of a condition that stands in another one, `G` says which words it has. -/

/-- What a template writes out is a word of its own, and so is a count. -/
def Template.Part.Mentions : Template.Part S → Word → Prop
  | .text s, w => w = .raw s
  | .value _, _ => False
  | .column n, w => w = .column n
  | .table n, w => w = .table n
  | .condition c, w => G c w
  | .count, w => ∃ n, w = .numeral n

/-- A selection has the names of its table and columns, and the words of its filter. -/
def Subquery.Mentions : Subquery S → Word → Prop
  | .select table columns filter, w =>
    w = .table table ∨ (∃ n ∈ columns, w = .column n) ∨ ∃ c ∈ filter, G c w
  | .template parts, w => ∃ p ∈ parts, p.Mentions G w

/-- What is bound is not among the words. -/
def Scalar.Mentions : Scalar S → Word → Prop
  | .null, _ | .value _, _ => False
  | .raw sql, w => w = .raw sql.text
  | .subquery q, w => q.Mentions G w

/-- A column has its name, or its SQL, or the words of its query. -/
def Column.Mentions : Column S → Word → Prop
  | .name n, w => w = .column n
  | .raw sql, w => w = .raw sql.text
  | .subquery q, w => q.Mentions G w

/-- The word that a plain column is written as. -/
def PlainColumn.word : PlainColumn → Word
  | .name n => .column n
  | .raw sql => .raw sql.text

/-- The keys of a row are not written. -/
inductive Operand.Mentions : Operand S → Word → Prop
  | scalar {s : Scalar S} {w : Word} (h : s.Mentions G w) : Mentions (.scalar s) w
  | item {items : List (Operand S)} {o : Operand S} {w : Word} (ho : o ∈ items)
      (h : Mentions o w) : Mentions (.list items) w
  | entry {entries : List (String × Operand S)} {e : String × Operand S} {w : Word}
      (he : e ∈ entries) (h : Mentions e.2 w) : Mentions (.row entries) w

/-- The words of the members, or of the query. -/
def Candidates.Mentions : Candidates S → Word → Prop
  | .members items, w => ∃ o ∈ items, o.Mentions G w
  | .subquery q, w => q.Mentions G w

/-- The words of the value of an entry. -/
def HashTest.Mentions : HashTest S → Word → Prop
  | .scalar s, w => s.Mentions G w
  | .list items, w => ∃ o ∈ items, o.Mentions G w

/-- A text is bound. -/
def Pattern.Mentions : Pattern S → Word → Prop
  | .text _, _ => False
  | .raw sql, w => w = .raw sql.text
  | .subquery q, w => q.Mentions G w

/-- The words of a node. Of the operators only a comparison is one, since the others are
keywords. -/
def Condition.Mentions : Condition S → Word → Prop
  | .hash entries, w => ∃ e ∈ entries, w = .column e.1 ∨ e.2.Mentions G w
  | .comparison column operator value, w =>
    column.Mentions G w ∨ w = .operator operator.text ∨ value.Mentions G w
  | .membership columns _ candidates, w =>
    (∃ c ∈ columns, w = c.word) ∨ candidates.Mentions G w
  | .between column _ low high, w =>
    column.Mentions G w ∨ low.Mentions G w ∨ high.Mentions G w
  | .betweenColumns value _ low high, w =>
    value.Mentions G w ∨ low.Mentions G w ∨ high.Mentions G w
  | .pattern column _ patterns _, w => column.Mentions G w ∨ ∃ p ∈ patterns, p.Mentions G w
  | .negation inner, w => G inner w
  | .junction _ operands, w => ∃ t ∈ operands, G t w
  | .existence _ q, w => q.Mentions G w

end

section

variable {S : Type} {G : S → Word → Prop} {f : S → Render String} {d : Dialect}
  {own : Word → Prop} {s t : Sink}

/-! ### Sub-queries and the sides of a test -/

/-- A part of a template is one word, or a placeholder, or a condition. -/
theorem Template.Part.says_render {p : Template.Part S}
    (h : ∀ t ∈ p.nested, Says d (G t) .text (f t)) :
    Says d (p.Mentions G) .text ((p.map f).render d) := by
  cases p with
  | text s => exact .const fun _ _ => IsPhrase.word (.raw s) rfl
  | value v => exact .value v
  | column n => exact .const fun _ _ => IsPhrase.word (.column n) rfl
  | table n => exact .const fun _ _ => IsPhrase.word (.table n) rfl
  | condition c => exact h c (List.mem_singleton_self c)
  | count =>
    intro s m _ a t hrun
    obtain ⟨n, m', hn, hrun⟩ := bind_eq_ok.1 hrun
    cases hn
    obtain ⟨rfl, rfl⟩ := pure_eq_ok.1 hrun
    exact ⟨List.Subset.refl _, IsPhrase.word (.numeral m.size) ⟨_, rfl⟩⟩

namespace Subquery

/-- A list of columns has commas between names, or is a star. -/
theorem isPhrase_columnList {columns : List String} (h : ∀ n ∈ columns, own (.column n)) :
    IsPhrase d own s t (columnList d columns) := by
  cases columns with
  | nil =>
    show IsPhrase d own s t "*"
    exact .fixed ["*"] (by decide)
  | cons n ns =>
    show IsPhrase d own s t (", ".intercalate ((n :: ns).map d.columnName))
    apply IsPhrase.commaSeparated
    intro a ha
    obtain ⟨n', hn', rfl⟩ := List.mem_map.1 ha
    exact .word (.column n') (h n' hn')

/-- The head of a selection has two keywords in it and names. -/
theorem isPhrase_selection {table : String} {columns : List String} (htable : own (.table table))
    (hcolumns : ∀ n ∈ columns, own (.column n)) :
    IsPhrase d own s t ("SELECT " ++ columnList d columns ++ " FROM " ++ d.tableName table) := by
  have hselect : IsPhrase d own s t "SELECT " := .fixed ["SELECT", " "] (by decide)
  have hfrom : IsPhrase d own s t " FROM " := .fixed [" ", "FROM", " "] (by decide)
  have hcolumns := hselect.append (isPhrase_columnList hcolumns)
  exact (hcolumns.append hfrom).append (.word (.table table) htable)

/-- An empty filter leaves no keyword behind. -/
theorem isPhrase_whereClause {condition : String} (h : IsPhrase d own s t condition) :
    IsPhrase d own s t (whereClause condition) := by
  have hwhere : IsPhrase d own s t " WHERE " := .fixed [" ", "WHERE", " "] (by decide)
  exact .ifEmpty .empty (hwhere.append h) _

/-- A query is written in its words and those of what stands in it. -/
theorem says_render {q : Subquery S} (h : ∀ t ∈ q.nested, Says d (G t) .text (f t)) :
    Says d (q.Mentions G) .text ((q.map f).render d) := by
  cases q with
  | select table columns filter =>
    have hselection (s t : Sink) : IsPhrase d ((select table columns filter).Mentions G) s t
        ("SELECT " ++ columnList d columns ++ " FROM " ++ d.tableName table) :=
      isPhrase_selection (.inl rfl) fun n hn => .inr (.inl ⟨n, hn, rfl⟩)
    cases filter with
    | none => exact .const hselection
    | some c =>
      have hc : Says d ((select table columns (some c)).Mentions G) .text (f c) :=
        (h c (List.mem_singleton_self c)).mono fun w hw => .inr (.inr ⟨c, rfl, hw⟩)
      apply hc.map
      intro s t a ha
      exact (hselection s t).append (isPhrase_whereClause ha)
  | template parts =>
    -- The parts are written in turn, and each of them says its own words.
    rw [map_template]
    have hparts : Says d ((template parts).Mentions G) Parts.text.each
        ((parts.map (·.map f)).mapM (·.render d)) := by
      rw [List.mapM_map]
      apply Says.mapM
      intro p hp
      have hpart : Says d (p.Mentions G) .text ((p.map f).render d) := by
        apply Template.Part.says_render
        intro t ht
        exact h t (List.mem_flatMap.2 ⟨p, hp, ht⟩)
      exact hpart.mono fun w hw => ⟨p, hp, hw⟩
    apply hparts.map
    intro s t as has
    exact .join has

/-- Parentheses are in the vocabulary. -/
theorem says_parenthesized {q : Subquery S} (h : ∀ t ∈ q.nested, Says d (G t) .text (f t)) :
    Says d (q.Mentions G) .text
      (do return parenthesized (← (q.map f).render d)) := by
  apply (says_render h).map
  intro s t a ha
  exact ha.parenthesized

end Subquery

/-- A scalar is written as a keyword, a placeholder, or raw SQL. -/
theorem Scalar.says_render {x : Scalar S} (h : ∀ t ∈ x.nested, Says d (G t) .text (f t)) :
    Says d (x.Mentions G) .text ((x.map f).render d) := by
  cases x with
  | null => exact .const fun _ _ => IsPhrase.fixed ["NULL"] (by decide)
  | value v => exact .value v
  | raw sql => exact .const fun _ _ => IsPhrase.word (.raw sql.text) rfl
  | subquery q => exact Subquery.says_parenthesized h

theorem Column.says_render {c : Column S} (h : ∀ t ∈ c.nested, Says d (G t) .text (f t)) :
    Says d (c.Mentions G) .text ((c.map f).render d) := by
  cases c with
  | name n => exact .const fun _ _ => IsPhrase.word (.column n) rfl
  | raw sql => exact .const fun _ _ => IsPhrase.word (.raw sql.text) rfl
  | subquery q => exact Subquery.says_parenthesized h

theorem Pattern.says_render (table : Option (List (Char × String))) {p : Pattern S}
    (h : ∀ t ∈ p.nested, Says d (G t) .text (f t)) :
    Says d (p.Mentions G) .text ((p.map f).render d table) := by
  cases p with
  | text s => exact .value _
  | raw sql => exact .const fun _ _ => IsPhrase.word (.raw sql.text) rfl
  | subquery q => exact Subquery.says_parenthesized h

/-- A plain column is written as its word. -/
theorem PlainColumn.isPhrase_text {c : PlainColumn} (h : own c.word) :
    IsPhrase d own s t (c.text d) := by
  cases c with
  | name n => exact .word (.column n) h
  | raw sql => exact .word (.raw sql.text) h

/-! ### Membership tests -/

/-- A test against nothing is in the vocabulary, and so is an empty text. -/
theorem Polarity.isPhrase_overNothing (p : Polarity) : IsPhrase d own s t p.overNothing := by
  cases p with
  | positive => exact .fixed ["0=1"] (by decide)
  | negative => exact .empty

/-- Operators that have a polarity are keywords in both. -/
theorem Polarity.apply_mem_vocabulary (p : Polarity) :
    ∀ base ∈ ["IN", "BETWEEN", "LIKE", "ILIKE", "EXISTS"], p.apply base ∈ vocabulary := by
  cases p <;> decide

/-- An operator with a polarity is a keyword. -/
theorem Polarity.isPhrase_apply (p : Polarity) (base : String)
    (hbase : base ∈ ["IN", "BETWEEN", "LIKE", "ILIKE", "EXISTS"]) :
    IsPhrase d own s t (p.apply base) := by
  have hword := p.apply_mem_vocabulary base hbase
  exact .fixed [p.apply base] ⟨by simp, List.forall_mem_singleton.2 hword⟩

/-- A test with an operator of some polarity between its sides. -/
theorem Polarity.isPhrase_test (p : Polarity) (base : String)
    (hbase : base ∈ ["IN", "BETWEEN", "LIKE", "ILIKE", "EXISTS"]) {a b : String}
    (ha : IsPhrase d own s t a) (hb : IsPhrase d own s t b) :
    IsPhrase d own s t (a ++ " " ++ p.apply base ++ " " ++ b) :=
  (ha.spaced (p.isPhrase_apply base hbase)).spaced hb

namespace Membership

variable {o : Operand S}

/-- What a member mentions under a column is mentioned in it. -/
theorem mentions_of_entryUnder {column : PlainColumn} {member : Operand S} {w : Word}
    (h : o ∈ entryUnder column member) (hw : o.Mentions G w) : member.Mentions G w := by
  cases member with
  | scalar s => exact Option.some.inj h ▸ hw
  | list items => exact Option.some.inj h ▸ hw
  | row entries => exact .entry (Keyed.mem_of_lookup h) hw

/-- A member that is null is not written at all. -/
theorem says_renderMember (operator : String) {m : Option (Operand S)}
    (hm : ∀ o ∈ m, ∀ w, o.Mentions G w → own w) :
    Says d own Parts.text.option (renderMember d operator (m.map (Operand.map f))) := by
  have hnone : Says d own Parts.text.option (pure none) :=
    .const fun _ _ a ha => absurd ha (by simp)
  cases m with
  | none => exact hnone
  | some o =>
    rw [Option.map_some]
    cases o with
    | scalar s =>
      rw [Operand.map_scalar]
      cases s with
      | null => exact hnone
      | value v =>
        apply (Says.value v).map
        intro s t a ha b hb
        obtain rfl := Option.some.inj hb
        exact ha
      | raw sql =>
        apply Says.const
        intro s t a ha
        obtain rfl := Option.some.inj ha
        exact .word (.raw sql.text) (hm _ rfl _ (.scalar rfl))
      | subquery q => exact .fail _
    | list items =>
      rw [Operand.map_list]
      exact .fail _
    | row entries =>
      rw [Operand.map_row]
      exact .fail _

/-- An entry that is absent is written as `NULL`. -/
theorem says_renderEntry (operator : String) {m : Option (Operand S)}
    (h : ∀ o ∈ m, ∀ t ∈ o.nested, Says d (G t) .text (f t))
    (hm : ∀ o ∈ m, ∀ w, o.Mentions G w → own w) :
    Says d own .text (renderEntry d operator (m.map (Operand.map f))) := by
  cases m with
  | none => exact .const fun _ _ => IsPhrase.fixed ["NULL"] (by decide)
  | some o =>
    rw [Option.map_some]
    cases o with
    | scalar s =>
      rw [Operand.map_scalar]
      have hscalar : Says d (s.Mentions G) .text ((s.map f).render d) := by
        apply Scalar.says_render
        intro t ht
        exact h _ rfl t (by rwa [Operand.nested])
      exact hscalar.mono fun w hw => hm _ rfl w (.scalar hw)
    | list items =>
      rw [Operand.map_list]
      exact .fail _
    | row entries =>
      rw [Operand.map_row]
      exact .fail _

/-- What an entry mentions is mentioned in the row. -/
theorem mentions_of_rowEntries {operator : String} {columns : List PlainColumn}
    {row : Operand S} {entries : List (Option (Operand S))} {w : Word}
    (h : rowEntries operator columns row = .ok entries) (ho : some o ∈ entries)
    (hw : o.Mentions G w) : row.Mentions G w := by
  cases row with
  | scalar s => simp [rowEntries] at h
  | list items =>
    cases h
    obtain ⟨i, -, hi⟩ := List.mem_map.1 ho
    exact .item (List.mem_of_getElem? hi) hw
  | row es =>
    cases h
    obtain ⟨c, -, hc⟩ := List.mem_map.1 ho
    exact .entry (Keyed.mem_of_lookup hc) hw

/-- A row is a list of its entries in parentheses. -/
theorem says_renderRow (operator : String) (columns : List PlainColumn)
    (h : ∀ t ∈ o.nested, Says d (G t) .text (f t)) :
    Says d (o.Mentions G) .text (renderRow d operator columns (o.map f)) := by
  -- The columns choose the entries before anything is written.
  rw [renderRow, rowEntries_map]
  cases hentries : rowEntries operator columns o with
  | error e => exact .fail e
  | ok entries =>
    have hmapM : Says d (o.Mentions G) Parts.text.each
        ((entries.map (Option.map (Operand.map f))).mapM (renderEntry d operator)) := by
      rw [List.mapM_map]
      apply Says.mapM
      intro m hm
      apply says_renderEntry operator
      · intro o' ho' t ht
        rw [Option.mem_def.1 ho'] at hm
        exact h t (mem_nested_of_rowEntries hentries hm ht)
      · intro o' ho' w hw
        rw [Option.mem_def.1 ho'] at hm
        exact mentions_of_rowEntries hentries hm hw
    apply hmapM.map
    intro s t as has
    exact (IsPhrase.commaSeparated has).parenthesized

/-- A test for null repeats the column. -/
theorem isPhrase_nullTest {column : String} (hcolumn : IsPhrase d own s t column)
    (polarity : Polarity) : IsPhrase d own s t (nullTest column polarity) := by
  cases polarity with
  | positive => exact hcolumn.append (.fixed [" ", "IS NULL"] (by decide))
  | negative => exact hcolumn.append (.fixed [" ", "IS NOT NULL"] (by decide))

/-- The form of a test against members depends on how many there are. -/
theorem isPhrase_listTest {column : String} (hcolumn : IsPhrase d own s t column)
    (polarity : Polarity) {members : List String} (hmembers : ∀ a ∈ members, IsPhrase d own s t a) :
    ∀ a ∈ listTest column polarity members, IsPhrase d own s t a := by
  intro a ha
  match members, hmembers with
  | [], _ => exact absurd ha (by simp [listTest])
  | [member], hmembers =>
    have hmember := hmembers member (List.mem_singleton_self member)
    cases polarity with
    | positive =>
      obtain rfl := Option.some.inj ha
      exact (hcolumn.append (.fixed [" ", "=", " "] (by decide))).append hmember
    | negative =>
      obtain rfl := Option.some.inj ha
      exact (hcolumn.append (.fixed [" ", "<>", " "] (by decide))).append hmember
  | member :: member' :: members, hmembers =>
    obtain rfl := Option.some.inj ha
    exact polarity.isPhrase_test "IN" (by decide) hcolumn
      (IsPhrase.commaSeparated hmembers).parenthesized

/-- A test against members, some of which may be null, in either polarity. -/
theorem isPhrase_test {column : String} (hcolumn : IsPhrase d own s t column)
    (polarity : Polarity) {members : List (Option String)}
    (hmembers : ∀ m ∈ members, ∀ a ∈ m, IsPhrase d own s t a) :
    IsPhrase d own s t (test column polarity members) := by
  have hnull := isPhrase_nullTest hcolumn polarity
  have hlist : ∀ a ∈ listTest column polarity (members.filterMap id), IsPhrase d own s t a :=
    isPhrase_listTest hcolumn polarity fun a ha => by
      obtain ⟨m, hm, hma⟩ := List.mem_filterMap.1 ha
      exact hmembers m hm a hma
  -- Null is tested for apart, so it may be all that there is, or come after the others.
  rw [test]
  split
  · exact polarity.isPhrase_overNothing
  · exact hnull
  · next a ha _ => exact hlist a ha
  · next a hsome _ =>
    have ha := hlist a hsome
    cases polarity with
    | positive =>
      have hor : IsPhrase d own s t " OR " := .fixed [" ", "OR", " "] (by decide)
      exact ((ha.append hor).append hnull).parenthesized
    | negative =>
      have hand : IsPhrase d own s t " AND " := .fixed [" ", "AND", " "] (by decide)
      exact ((ha.append hand).append hnull).parenthesized

/-- One column is written as it is, several as a list. -/
theorem isPhrase_columnsText {columns : List PlainColumn} (h : ∀ c ∈ columns, own c.word) :
    IsPhrase d own s t (columnsText d columns) := by
  have hall : ∀ a ∈ columns.map (·.text d), IsPhrase d own s t a := fun a ha => by
    obtain ⟨c, hc, rfl⟩ := List.mem_map.1 ha
    exact c.isPhrase_text (h c hc)
  unfold columnsText
  split
  · next c => exact c.isPhrase_text (h c (List.mem_singleton_self c))
  · exact (IsPhrase.commaSeparated hall).parenthesized

/-- **A test of membership is written in words** of its columns and of its candidates. -/
theorem says_render (columns : List PlainColumn) (polarity : Polarity) {x : Candidates S}
    (h : ∀ t ∈ x.nested, Says d (G t) .text (f t)) :
    Says d (fun w => (∃ c ∈ columns, w = c.word) ∨ x.Mentions G w) .text
      (render d columns polarity (x.map f)) := by
  have hnothing (own : Word → Prop) : Says d own .text (pure polarity.overNothing) :=
    .const fun _ _ => polarity.isPhrase_overNothing
  cases x with
  | subquery q =>
    cases columns with
    | nil => exact hnothing _
    | cons c cs =>
      have hquery : Says d (fun w => (∃ c' ∈ c :: cs, w = c'.word) ∨
          (Candidates.subquery q).Mentions G w) .text ((q.map f).render d) :=
        (Subquery.says_render h).mono fun w hw => .inr hw
      apply hquery.map
      intro s t a ha
      apply polarity.isPhrase_test "IN" (by decide)
      · apply isPhrase_columnsText
        intro c' hc'
        exact .inl ⟨c', hc', rfl⟩
      · exact ha.parenthesized
  | members items =>
    rw [Candidates.map_members]
    -- How many columns and members there are decides on the form.
    match columns, items with
    | [], [] => exact hnothing _
    | [], _ :: _ => exact hnothing _
    | _ :: _, [] => exact hnothing _
    | [column], m :: ms =>
      have hmembers : Says d (fun w => (∃ c ∈ [column], w = c.word) ∨
            (Candidates.members (m :: ms)).Mentions G w) Parts.text.option.each
          (((m :: ms).map (Operand.map f)).mapM fun o =>
            renderMember d (polarity.apply "IN") (entryUnder column o)) := by
        rw [List.mapM_map]
        apply Says.mapM
        intro o ho
        -- Under the column there is a part of the member, which mentions no more.
        rw [Function.comp_apply, entryUnder_map]
        apply says_renderMember (G := G)
        intro o' ho' w hw
        exact .inr ⟨o, ho, mentions_of_entryUnder ho' hw⟩
      apply hmembers.map
      intro s t as has
      apply isPhrase_test _ polarity has
      exact column.isPhrase_text (.inl ⟨column, List.mem_singleton_self column, rfl⟩)
    | c :: c' :: cs, m :: ms =>
      have hrows : Says d (fun w => (∃ c'' ∈ c :: c' :: cs, w = c''.word) ∨
            (Candidates.members (m :: ms)).Mentions G w) Parts.text.each
          (((m :: ms).map (Operand.map f)).mapM
            (renderRow d (polarity.apply "IN") (c :: c' :: cs))) := by
        rw [List.mapM_map]
        apply Says.mapM
        intro o ho
        have hrow : Says d (o.Mentions G) .text
            (renderRow d (polarity.apply "IN") (c :: c' :: cs) (o.map f)) := by
          apply says_renderRow
          intro t ht
          exact h t (Operand.mem_nestedItems ho ht)
        exact hrow.mono fun w hw => .inr ⟨o, ho, hw⟩
      apply hrows.map
      intro s t as has
      apply polarity.isPhrase_test "IN" (by decide)
      · apply isPhrase_columnsText
        intro c'' hc''
        exact .inl ⟨c'', hc'', rfl⟩
      · exact (IsPhrase.commaSeparated has).parenthesized

end Membership

/-! ### Nodes -/

/-- The test of an entry has the name of its column, and the words of its value. -/
theorem HashTest.says_render (column : String) {e : HashTest S}
    (h : ∀ t ∈ e.nested, Says d (G t) .text (f t)) :
    Says d (fun w => w = .column column ∨ e.Mentions G w) .text ((e.map f).render d column) := by
  have hcolumn (s t : Sink) : IsPhrase d (fun w => w = .column column ∨ e.Mentions G w) s t
      (d.columnName column) := .word (.column column) (.inl rfl)
  -- The only column of a test of membership is that of the entry.
  have hown (w : Word) (hw : (∃ c ∈ [PlainColumn.name column], w = c.word) ∨ e.Mentions G w) :
      w = .column column ∨ e.Mentions G w := by
    refine hw.imp_left ?_
    rintro ⟨c, hc, rfl⟩
    rw [List.mem_singleton.1 hc, PlainColumn.word]
  cases e with
  | scalar s =>
    cases s with
    | null => exact .const fun s t => (hcolumn s t).append (.fixed [" ", "IS NULL"] (by decide))
    | value v =>
      apply (Says.value v).map
      intro s t a ha
      exact ((hcolumn s t).append (.fixed ["="] (by decide))).append ha
    | raw sql =>
      apply Says.const
      intro s t
      exact ((hcolumn s t).append (.fixed ["="] (by decide))).append
        (.word (.raw sql.text) (.inr rfl))
    | subquery q =>
      have hq := Membership.says_render [.name column] .positive (x := .subquery q) h
      exact hq.mono hown
  | list items =>
    have hitems := Membership.says_render [.name column] .positive (x := .members items) h
    rw [Candidates.map_members] at hitems
    rw [map_list]
    exact hitems.mono hown

/-- What joins clauses is a keyword with spaces around it. -/
theorem Junction.isPhrase_text (j : Junction) : IsPhrase d own s t (" " ++ j.text ++ " ") := by
  cases j with
  | and => exact .fixed [" ", "AND", " "] (by decide)
  | or => exact .fixed [" ", "OR", " "] (by decide)

/-- Clauses are joined in parentheses, or there is only one. -/
theorem Junction.isPhrase_join (j : Junction) {clauses : List String}
    (h : ∀ a ∈ clauses, IsPhrase d own s t a) : IsPhrase d own s t (j.join clauses) := by
  unfold join
  split
  · exact .empty
  · next clause => exact h clause (List.mem_singleton_self clause)
  · apply IsPhrase.intercalate _ j.isPhrase_text
    intro a ha
    obtain ⟨clause, hclause, rfl⟩ := List.mem_map.1 ha
    exact (h clause hclause).parenthesized

namespace Condition

/-- Operands are written in turn; what is written for each is one of its own texts. -/
theorem says_renderOperands (j : Junction) {operands : List S}
    (hown : ∀ t ∈ operands, ∀ w, G t w → own w) (h : ∀ t ∈ operands, Says d (G t) .text (f t)) :
    Says d own Parts.text.each (renderOperands j (operands.map f)) := by
  rw [renderOperands, List.zipIdx_map, List.mapM_map]
  apply Says.mapM
  intro e he
  have ht := List.fst_mem_of_mem_zipIdx he
  exact ((h e.1 ht).mono (hown e.1 ht)).within _

/-- What is empty is not negated. -/
theorem isPhrase_negated {a : String} (ha : IsPhrase d own s t a) :
    IsPhrase d own s t (negated a) := by
  have hnot : IsPhrase d own s t "NOT " := .fixed ["NOT", " "] (by decide)
  exact .ifEmpty .empty (hnot.append ha.parenthesized) _

/-- The three parts of a range, whatever they are. -/
theorem says_between (polarity : Polarity) {x low high : Render String}
    (hx : Says d own .text x) (hlow : Says d own .text low) (hhigh : Says d own .text high) :
    Says d own .text (do
      let x ← x
      let low ← low
      let high ← high
      return x ++ " " ++ polarity.apply "BETWEEN" ++ " " ++ low ++ " AND " ++ high) := by
  apply hx.bind
  intro s m a hsm ha
  apply (hlow s m hsm).bind
  intro b t hmt hb
  apply (hhigh s t (List.Subset.trans hsm hmt)).bind
  intro c u htu hc
  apply SaysFrom.pure
  -- The placeholders of the left parts are bound in the last sink as well.
  have ha := IsPhrase.later (List.Subset.trans hmt htu) ha
  have hb := IsPhrase.later htu hb
  have hfirst := polarity.isPhrase_test "BETWEEN" (by decide) ha hb
  exact (hfirst.append (.fixed [" ", "AND", " "] (by decide))).append hc

/-- The core of a pattern operator is a keyword, in either polarity. -/
theorem isPhrase_core (operator : LikeOperator) : IsPhrase d own s t operator.core := by
  rw [LikeOperator.core, LikeOperator.base]
  split
  · exact operator.polarity.isPhrase_apply "ILIKE" (by decide)
  · exact operator.polarity.isPhrase_apply "LIKE" (by decide)

/-- The clause is a keyword and the literal of the character, or nothing. -/
theorem isPhrase_escapeClause : IsPhrase d own s t (Pattern.escapeClause d.options.likeEscape) := by
  cases hescape : d.options.likeEscape with
  | none => exact .empty
  | some c =>
    have hword : IsPhrase d own s t ((Word.escape c).text d) := .word _ hescape
    have hclause : IsPhrase d own s t (" ESCAPE " ++ (Word.escape c).text d) :=
      (IsPhrase.fixed [" ", "ESCAPE", " "] (by decide)).append hword
    -- The literal begins within the first of the texts that are joined.
    have hquote : " ESCAPE '" = " ESCAPE " ++ "'" := by decide
    rw [Pattern.escapeClause, hquote, String.append_assoc, String.append_assoc]
    rwa [Word.text, String.append_assoc] at hclause

/-- The text of the column stands in each clause, so its words may be repeated. -/
theorem says_renderAll (operator : LikeOperator) (escaping : Escaping) {column : Column S}
    {patterns : List (Pattern S)} (hcolumn : Says d own .text ((column.map f).render d))
    (hpatterns : ∀ p ∈ patterns, ∀ table, Says d own .text ((p.map f).render d table)) :
    Says d own .text (Pattern.renderAll d (column.map f) operator escaping
      (patterns.map (·.map f))) := by
  cases patterns with
  | nil => exact .const fun _ _ => operator.polarity.isPhrase_overNothing
  | cons p ps =>
    have htexts : Says d own Parts.text.each (((p :: ps).map (·.map f)).mapM
        (Pattern.render d (d.options.escapeTable escaping))) := by
      rw [List.mapM_map]
      apply Says.mapM
      intro p' hp'
      exact hpatterns p' hp' _
    apply hcolumn.bind
    intro s m a hsm ha
    apply (htexts s m hsm).bind
    intro as t hmt has
    apply SaysFrom.pure
    -- One text of the column stands in all clauses.
    apply IsPhrase.intercalate _ operator.junction.isPhrase_text
    intro b hb
    obtain ⟨pattern, hpattern, rfl⟩ := List.mem_map.1 hb
    have hleft := (IsPhrase.later hmt ha).spaced (isPhrase_core operator)
    exact (hleft.spaced (has pattern hpattern)).append isPhrase_escapeClause

/-- **A node is written in words** that stand in it or in the conditions that stand in it. -/
theorem says_render {c : Condition S} (h : ∀ t ∈ c.nested, Says d (G t) .text (f t)) :
    Says d (c.Mentions G) .text ((c.map f).render d) := by
  cases c with
  | hash entries =>
    rw [map_hash]
    have hentries : Says d ((hash entries).Mentions G) Parts.text.each
        ((entries.map fun e => (e.1, e.2.map f)).mapM fun e => e.2.render d e.1) := by
      rw [List.mapM_map]
      apply Says.mapM
      intro e he
      have htest := HashTest.says_render (G := G) (d := d) (f := f) e.1 (e := e.2) fun t ht =>
        h t (List.mem_flatMap.2 ⟨e, he, ht⟩)
      exact htest.mono fun w hw => ⟨e, he, hw⟩
    apply hentries.map
    intro s t as has
    exact Junction.and.isPhrase_join has
  | comparison column operator value =>
    obtain ⟨hcolumn, hvalue⟩ := List.forall_mem_append.1 h
    have hleft : Says d ((comparison column operator value).Mentions G) .text
        ((column.map f).render d) := (Column.says_render hcolumn).mono fun w hw => .inl hw
    have hright : Says d ((comparison column operator value).Mentions G) .text
        ((value.map f).render d) := (Scalar.says_render hvalue).mono fun w hw => .inr (.inr hw)
    apply hleft.bind
    intro s m a hsm ha
    apply (hright s m hsm).bind
    intro b t hmt hb
    apply SaysFrom.pure
    -- A comparison is the one operator that is not in the vocabulary.
    have hoperator : IsPhrase d ((comparison column operator value).Mentions G) s t operator.text :=
      .word (.operator operator.text)
        ⟨.inr (.inl rfl), isComparison_iff.1 operator.isComparison_text⟩
    exact ((IsPhrase.later hmt ha).spaced hoperator).spaced hb
  | membership columns polarity candidates => exact Membership.says_render columns polarity h
  | between column polarity low high =>
    obtain ⟨hcolumn, hbounds⟩ := List.forall_mem_append.1 h
    obtain ⟨hlow, hhigh⟩ := List.forall_mem_append.1 hbounds
    apply says_between polarity
    · exact (Column.says_render hcolumn).mono fun w hw => .inl hw
    · exact (Scalar.says_render hlow).mono fun w hw => .inr (.inl hw)
    · exact (Scalar.says_render hhigh).mono fun w hw => .inr (.inr hw)
  | betweenColumns value polarity low high =>
    obtain ⟨hvalue, hbounds⟩ := List.forall_mem_append.1 h
    obtain ⟨hlow, hhigh⟩ := List.forall_mem_append.1 hbounds
    apply says_between polarity
    · exact (Scalar.says_render hvalue).mono fun w hw => .inl hw
    · exact (Column.says_render hlow).mono fun w hw => .inr (.inl hw)
    · exact (Column.says_render hhigh).mono fun w hw => .inr (.inr hw)
  | pattern column operator patterns escaping =>
    rw [map_pattern]
    obtain ⟨hcolumn, hpatterns⟩ := List.forall_mem_append.1 h
    apply says_renderAll operator escaping
    · exact (Column.says_render hcolumn).mono fun w hw => .inl hw
    · intro p hp table
      have hpattern : Says d (p.Mentions G) .text ((p.map f).render d table) := by
        apply Pattern.says_render table
        intro t ht
        exact hpatterns t (List.mem_flatMap.2 ⟨p, hp, ht⟩)
      exact hpattern.mono fun w hw => .inr ⟨p, hp, hw⟩
  | negation inner =>
    have hinner : Says d (G inner) .text (f inner) := h inner (List.mem_singleton_self inner)
    apply (hinner.within .negated).map
    intro s t a ha
    exact isPhrase_negated ha
  | junction operator operands =>
    rw [map_junction]
    have hoperands : Says d ((junction operator operands).Mentions G) Parts.text.each
        (renderOperands operator (operands.map f)) :=
      says_renderOperands operator (fun t ht w hw => ⟨t, ht, hw⟩) h
    apply hoperands.map
    intro s t as has
    apply operator.isPhrase_join
    intro a ha
    -- What is left out says nothing.
    exact has a (List.mem_of_mem_filter ha)
  | existence polarity q =>
    apply (Subquery.says_render h).map
    intro s t a ha
    exact (polarity.isPhrase_apply "EXISTS" (by decide)).spaced ha.parenthesized

end Condition

end

end WhereClause
