/-
WhereClause/Proofs/Rows.lean

Several columns against rows.  A row may have fewer or more entries than there are
columns, and holds them by name or by position; either way one entry for each column
is written, and `NULL` where there is none.  What else the row has, and in which order,
does not show.

Main results: the text of a row is made of the entries under the columns
(`Membership.renderRow_eq_ok`), changes that keep these entries do not show
(`Membership.renderRow_eq_of_restates`), and so a test is a full matrix
(`Compiler.build_rows`).
-/
import Mathlib.Logic.Relation
import WhereClause.Proofs.Render.Success

namespace WhereClause

open Render

variable {S T : Type}

/-- A list or a row: what has entries. -/
def Operand.IsRow : Operand S → Prop
  | .scalar _ => False
  | .list _ | .row _ => True

/-- What stands in a row has no part in whether it is one. -/
theorem Operand.isRow_map (f : S → T) (row : Operand S) : (row.map f).IsRow ↔ row.IsRow := by
  cases row with
  | scalar s => rw [map_scalar, IsRow, IsRow]
  | list items => rw [map_list, IsRow, IsRow]
  | row entries => rw [map_row, IsRow, IsRow]

namespace Membership

variable {d : Dialect} {operator : String} {columns : List PlainColumn}

/-! ### The entries under the columns -/

/-- The entry of a row under the column at a position; an absent one is null. -/
def entryAt (columns : List PlainColumn) : Operand S → Nat → Operand S
  | .row entries, j => (columns[j]?.bind fun c => entries.lookup c.key).getD (.scalar .null)
  | .list items, j => items[j]?.getD (.scalar .null)
  | .scalar _, _ => .scalar .null

/-- The entries of a row that are looked at, in the order of the columns. -/
def selected (columns : List PlainColumn) (row : Operand S) : List (Operand S) :=
  (List.range columns.length).map (entryAt columns row)

/-- There is an entry for each column, if only an absent one. -/
theorem length_selected (columns : List PlainColumn) (row : Operand S) :
    (selected columns row).length = columns.length := by
  rw [selected, List.length_map, List.length_range]

/-- The columns select the same entry before and after what stands in it is replaced. -/
theorem entryAt_map (f : S → T) (columns : List PlainColumn) (row : Operand S) (j : Nat) :
    entryAt columns (row.map f) j = (entryAt columns row j).map f := by
  have hnull : (Operand.scalar .null : Operand T) = (Operand.scalar (.null : Scalar S)).map f :=
    (Operand.map_scalar f .null).symm
  cases row with
  | scalar s =>
    rw [Operand.map_scalar, entryAt, entryAt]
    exact hnull
  | list items =>
    rw [Operand.map_list, entryAt, entryAt, List.getElem?_map, hnull, Option.getD_map]
  | row entries =>
    simp only [Operand.map_row, entryAt, Keyed.lookup_map]
    rw [hnull, ← Option.getD_map (Operand.map f), Option.map_bind]
    rfl

theorem selected_map (f : S → T) (columns : List PlainColumn) (row : Operand S) :
    selected columns (row.map f) = (selected columns row).map (Operand.map f) := by
  rw [selected, selected, List.map_map]
  exact List.map_congr_left fun j _ => entryAt_map f columns row j

/-- What is read of a row are these entries, some of them absent. -/
theorem exists_rowEntries (operator : String) (columns : List PlainColumn) {row : Operand S}
    (h : row.IsRow) :
    ∃ entries, rowEntries operator columns row = .ok entries ∧
      selected columns row = entries.map (·.getD (.scalar .null)) := by
  cases row with
  | scalar s => exact absurd h id
  | list items => exact ⟨_, rfl, by rw [selected, List.map_map]; rfl⟩
  | row entries =>
    refine ⟨_, rfl, ?_⟩
    -- A row is read column by column, and so by the positions of the columns.
    have hcolumns : columns.map some = (List.range columns.length).map (columns[·]?) := by
      rw [range_map_getElem?, List.take_length, Nat.sub_self, List.replicate_zero,
        List.append_nil]
    calc
      selected columns (.row entries)
        = ((List.range columns.length).map (columns[·]?)).map fun c =>
            (c.bind fun c => entries.lookup c.key).getD (.scalar .null) := by
          rw [List.map_map]; rfl
      _ = (columns.map fun c => entries.lookup c.key).map (·.getD (.scalar .null)) := by
          rw [← hcolumns, List.map_map, List.map_map]; rfl

/-! ### What is written -/

/-- A row is written as its selected entries, in the order of the columns. -/
theorem renderRow_of_isRow {row : Operand (Render String)} (h : row.IsRow) :
    renderRow d operator columns row = do
      let tuple ← (selected columns row).mapM fun o => renderEntry d operator (some o)
      return parenthesized (", ".intercalate tuple) := by
  obtain ⟨entries, hentries, hselected⟩ := exists_rowEntries operator columns h
  -- Absent entries and nulls are written alike.
  have hsteps : entries.mapM (renderEntry d operator) =
      (selected columns row).mapM fun o => renderEntry d operator (some o) := by
    rw [hselected, List.mapM_map]
    refine congrArg (entries.mapM ·) (funext fun m => ?_)
    cases m <;> rfl
  rw [renderRow, hentries, ← hsteps]
  rfl

/-- How an entry is written, and what is bound for it. -/
inductive WritesEntry (c : Compiler) : Operand Spec → Sink → String → Sink → Prop
  | null (s : Sink) : WritesEntry c (.scalar .null) s "NULL" s
  | value (v : Value) (s : Sink) :
    WritesEntry c (.scalar (.value v)) s (s.bind c.dialect.options.placeholder v).1
      (s.bind c.dialect.options.placeholder v).2
  | raw (sql : RawSql) (s : Sink) : WritesEntry c (.scalar (.raw sql)) s sql.text s
  | subquery {q : Subquery Spec} {s t : Sink} {sql : String}
    (h : (q.map (Spec.compile c)).render c.dialect s = (.ok sql, t)) :
    WritesEntry c (.scalar (.subquery q)) s (parenthesized sql) t

/-- An entry is written as a scalar is. -/
theorem renderEntry_eq_ok {c : Compiler} {o : Operand Spec} {s t : Sink} {sql : String} :
    renderEntry c.dialect operator (some (o.map (Spec.compile c))) s = (.ok sql, t) ↔
      WritesEntry c o s sql t := by
  cases o with
  | scalar x =>
    rw [Operand.map_scalar]
    -- Each kind of scalar is written by one rule of `WritesEntry`.
    cases x with
    | null =>
      constructor
      · intro h
        obtain ⟨rfl, rfl⟩ := pure_eq_ok.1 h
        exact .null s
      · rintro ⟨⟩
        rfl
    | value v =>
      constructor
      · intro h
        cases h
        exact .value v s
      · rintro ⟨⟩
        rfl
    | raw sql =>
      constructor
      · intro h
        obtain ⟨rfl, rfl⟩ := pure_eq_ok.1 h
        exact .raw sql s
      · rintro ⟨⟩
        rfl
    | subquery q =>
      constructor
      · intro h
        obtain ⟨sql, t, hq, h⟩ := bind_eq_ok.1 h
        obtain ⟨rfl, rfl⟩ := pure_eq_ok.1 h
        exact .subquery hq
      · rintro ⟨⟩
        rename_i h
        exact bind_eq_ok.2 ⟨_, _, h, rfl⟩
  | list items =>
    rw [Operand.map_list]
    -- No rule writes a list or a row, and the builder refuses them.
    refine iff_of_false (fun h => absurd h (by simp [renderEntry, fail])) fun h => ?_
    cases h
  | row entries =>
    rw [Operand.map_row]
    refine iff_of_false (fun h => absurd h (by simp [renderEntry, fail])) fun h => ?_
    cases h

/-- **A row is written** as its entries under the columns, from left to right. -/
theorem renderRow_eq_ok {c : Compiler} {row : Operand Spec} (hrow : row.IsRow) {s t : Sink}
    {sql : String} :
    renderRow c.dialect operator columns (row.map (Spec.compile c)) s = (.ok sql, t) ↔
      ∃ tuple, InTurn (WritesEntry c) (selected columns row) s tuple t ∧
        sql = parenthesized (", ".intercalate tuple) := by
  -- The entries are written one after the other, each onto the sink that the last one left.
  have hentries : ∀ tuple t,
      (((selected columns row).map (Operand.map (Spec.compile c))).mapM fun o =>
        renderEntry c.dialect operator (some o)) s = (.ok tuple, t) ↔
        InTurn (WritesEntry c) (selected columns row) s tuple t :=
    fun tuple t => mapM_eq_ok (p := Operand.map (Spec.compile c)) fun o _ s sql t =>
      renderEntry_eq_ok
  rw [renderRow_of_isRow ((Operand.isRow_map _ row).2 hrow), selected_map]
  constructor
  · intro hrun
    obtain ⟨tuple, t, htuple, hrun⟩ := bind_eq_ok.1 hrun
    obtain ⟨rfl, rfl⟩ := pure_eq_ok.1 hrun
    exact ⟨tuple, (hentries _ _).1 htuple, rfl⟩
  · rintro ⟨tuple, htuple, rfl⟩
    exact bind_eq_ok.2 ⟨tuple, t, (hentries _ _).2 htuple, rfl⟩

/-! ### When it is written -/

/-- No list and no row, and any sub-query can be written. -/
def IsWritable (c : Compiler) : Operand Spec → Prop
  | .scalar (.subquery q) =>
    ∀ s, ∃ sql t, (q.map (Spec.compile c)).render c.dialect s = (.ok sql, t)
  | .scalar _ => True
  | .list _ | .row _ => False

/-- Whether an entry can be written does not depend on the sink. -/
theorem isWritable_iff {c : Compiler} {o : Operand Spec} :
    EntryRenders (some (o.map (Spec.Compiles c.registry))) ↔ IsWritable c o := by
  cases o with
  | scalar x =>
    rw [Operand.map_scalar]
    cases x with
    | null => exact iff_of_true (List.forall_mem_nil _) trivial
    | value v => exact iff_of_true (List.forall_mem_nil _) trivial
    | raw sql => exact iff_of_true (List.forall_mem_nil _) trivial
    | subquery q =>
      -- A sub-query that is written on one sink is written on all.
      have hq := Subquery.succeedsIff_render (q := q) (d := c.dialect)
        fun t _ => Spec.succeedsIff_compile c t
      exact ⟨fun h s => (hq s).2 h, fun h => (hq .empty).1 (h .empty)⟩
  | list items =>
    rw [Operand.map_list]
    rfl
  | row entries =>
    rw [Operand.map_row]
    rfl

/-- A row is written if all its selected entries are; the others are not looked at. -/
theorem rowRenders_iff_selected {row : Operand Prop} :
    RowRenders columns row ↔ row.IsRow ∧ ∀ o ∈ selected columns row, EntryRenders (some o) := by
  by_cases h : row.IsRow
  · obtain ⟨entries, hentries, hselected⟩ := exists_rowEntries "" columns h
    rw [rowRenders_iff hentries, hselected, List.forall_mem_map, and_iff_right h]
    refine forall₂_congr fun m _ => ?_
    cases m with
    | none => exact iff_of_true trivial (List.forall_mem_nil _)
    | some o => rfl
  · refine iff_of_false (fun hrow => h ?_) fun hrow => h hrow.1
    cases row with
    | scalar s => exact hrow
    | list items => trivial
    | row entries => trivial

/-- A row can be written if its entries under the columns can. -/
theorem rowRenders_map_iff {c : Compiler} {row : Operand Spec} :
    RowRenders columns (row.map (Spec.Compiles c.registry)) ↔
      row.IsRow ∧ ∀ j < columns.length, IsWritable c (entryAt columns row j) := by
  rw [rowRenders_iff_selected, Operand.isRow_map, selected_map, selected, List.map_map,
    List.forall_mem_map]
  simp only [List.mem_range]
  exact and_congr_right fun _ => forall₂_congr fun j _ => isWritable_iff

/-! ### What does not show -/

/-- Changes to a row that keep its entries under the columns. -/
inductive Restates (columns : List PlainColumn) : Operand S → Operand S → Prop
  | permuted {es fs : List (String × Operand S)} (hkeys : (es.map (·.1)).Nodup)
    (h : es.Perm fs) : Restates columns (.row es) (.row fs)
  | unselected {before after : List (String × Operand S)} {e : String × Operand S}
    (he : ∀ c ∈ columns, c.key ≠ e.1) :
    Restates columns (.row (before ++ e :: after)) (.row (before ++ after))
  | surplus {items more : List (Operand S)} (h : columns.length ≤ items.length) :
    Restates columns (.list (items ++ more)) (.list items)
  | positional (es : List (String × Operand S)) :
    Restates columns (.row es)
      (.list (columns.map fun c => (es.lookup c.key).getD (.scalar .null)))

theorem Restates.isRow {row row' : Operand S} (h : Restates columns row row') :
    row.IsRow ∧ row'.IsRow := by
  cases h <;> exact ⟨trivial, trivial⟩

/-- Two ways to state a row select the same entry for each column. -/
theorem Restates.entryAt_eq {row row' : Operand S} (h : Restates columns row row') {j : Nat}
    (hj : j < columns.length) : entryAt columns row j = entryAt columns row' j := by
  cases h with
  | permuted hkeys hperm => simp only [entryAt, Keyed.lookup_eq_of_perm hperm hkeys]
  | unselected he =>
    have hkey := he columns[j] (List.getElem_mem hj)
    simp only [entryAt, List.getElem?_eq_getElem hj, Option.bind_some,
      Keyed.lookup_append_cons_of_ne hkey]
  | surplus h => rw [entryAt, entryAt, List.getElem?_append_left (Nat.lt_of_lt_of_le hj h)]
  | positional es =>
    simp only [entryAt, List.getElem?_map, List.getElem?_eq_getElem hj, Option.bind_some,
      Option.map_some, Option.getD_some]

/-- Two ways to state a row select the same entries. -/
theorem Restates.selected_eq {row row' : Operand S} (h : Restates columns row row') :
    selected columns row = selected columns row' :=
  List.map_congr_left fun _ hj => h.entryAt_eq (List.mem_range.1 hj)

/-- **Rows with the same entries under the columns** are written alike. -/
theorem renderRow_eq_of_restates (f : S → Render String) {row row' : Operand S}
    (h : Relation.EqvGen (Restates columns) row row') :
    renderRow d operator columns (row.map f) = renderRow d operator columns (row'.map f) := by
  induction h with
  | rel row row' h =>
    rw [renderRow_of_isRow ((Operand.isRow_map f row).2 h.isRow.1),
      renderRow_of_isRow ((Operand.isRow_map f row').2 h.isRow.2), selected_map, selected_map,
      h.selected_eq]
  | refl row => rfl
  | symm _ _ _ ih => exact ih.symm
  | trans _ _ _ _ _ ih ih' => exact ih.trans ih'

/-! ### The whole test -/

/-- The columns on the left, a tuple for each row on the right. -/
def matrixText (d : Dialect) (columns : List PlainColumn) (polarity : Polarity)
    (matrix : List (List String)) : String :=
  parenthesized (", ".intercalate (columns.map (·.text d))) ++ " " ++ polarity.apply "IN" ++
    " " ++ parenthesized (", ".intercalate (matrix.map fun tuple =>
      parenthesized (", ".intercalate tuple)))

/-- With several columns and some rows, the rows are written. -/
theorem render_members (hcolumns : 2 ≤ columns.length) (polarity : Polarity)
    {rows : List (Operand (Render String))} (hrows : rows ≠ []) :
    render d columns polarity (.members rows) = renderRows d columns polarity rows := by
  obtain ⟨row, rows, rfl⟩ := List.exists_cons_of_ne_nil hrows
  match columns, hcolumns with
  | _ :: _ :: _, _ => rfl

/-- With two columns or more every member has to be a row. -/
theorem renders_members (hcolumns : 2 ≤ columns.length) {rows : List (Operand Prop)} :
    Renders columns (.members rows) ↔ ∀ row ∈ rows, RowRenders columns row := by
  match columns, hcolumns with
  | _ :: _ :: _, _ => rfl

/-- Several columns are a list in parentheses. -/
theorem columnsText_eq (hcolumns : 2 ≤ columns.length) :
    columnsText d columns = parenthesized (", ".intercalate (columns.map (·.text d))) := by
  match columns, hcolumns with
  | _ :: _ :: _, _ => rfl

/-- A matrix is written, row by row. -/
theorem exists_matrix {c : Compiler} (hcolumns : 2 ≤ columns.length) {polarity : Polarity}
    {rows : List (Operand Spec)} (hrows : ∀ row ∈ rows, row.IsRow) {s t : Sink} {sql : String}
    (hrun : renderRows c.dialect columns polarity (rows.map (Operand.map (Spec.compile c))) s =
      (.ok sql, t)) :
    ∃ matrix, InTurn (fun row => InTurn (WritesEntry c) (selected columns row)) rows s matrix t ∧
      sql = matrixText c.dialect columns polarity matrix := by
  obtain ⟨texts, t, htexts, hrun⟩ := bind_eq_ok.1 hrun
  obtain ⟨rfl, rfl⟩ := pure_eq_ok.1 hrun
  have hturn := (mapM_eq_ok fun row hrow s sql t => renderRow_eq_ok (hrows row hrow)).1 htexts
  obtain ⟨matrix, hmatrix, rfl⟩ := hturn.exists_map
  exact ⟨matrix, hmatrix, by rw [columnsText_eq hcolumns, matrixText]⟩

theorem renderRows_eq_of_restates (polarity : Polarity) (f : S → Render String)
    {rows rows' : List (Operand S)}
    (h : List.Forall₂ (Relation.EqvGen (Restates columns)) rows rows') :
    renderRows d columns polarity (rows.map (Operand.map f)) =
      renderRows d columns polarity (rows'.map (Operand.map f)) := by
  have htuples : (rows.map (Operand.map f)).mapM (renderRow d (polarity.apply "IN") columns) =
      (rows'.map (Operand.map f)).mapM (renderRow d (polarity.apply "IN") columns) := by
    rw [List.mapM_map, List.mapM_map]
    exact mapM_congr_forall₂ (h.imp fun row row' h => renderRow_eq_of_restates f h)
  rw [renderRows, renderRows, htuples]

end Membership

namespace Compiler

open WhereClause.Membership

/-- **Tests of several columns are matrices.**  A test can be written exactly if each
member has entries and those under the columns can be written.  Then there is a tuple for
each member and in it an element for each column, written in this order.  What a member has
besides its entries under the columns does not show. -/
theorem build_rows (c : Compiler) (columns : List PlainColumn) (hcolumns : 2 ≤ columns.length)
    (polarity : Polarity) (rows : List (Operand Spec)) (hrows : rows ≠ []) (sink : Sink) :
    let test rows : Condition Spec := .membership columns polarity (.members rows)
    ((∃ sql sink', c.build (test rows) sink = (.ok sql, sink')) ↔
      ∀ row ∈ rows, row.IsRow ∧ ∀ j < columns.length, IsWritable c (entryAt columns row j)) ∧
    (∀ sql sink', c.build (test rows) sink = (.ok sql, sink') →
      ∃ matrix : List (List String), matrix.length = rows.length ∧
        (∀ tuple ∈ matrix, tuple.length = columns.length) ∧
        InTurn (fun row => InTurn (WritesEntry c) (selected columns row)) rows sink matrix
          sink' ∧
        sql = matrixText c.dialect columns polarity matrix) ∧
    ∀ rows', List.Forall₂ (Relation.EqvGen (Restates columns)) rows rows' →
      c.build (test rows') sink = c.build (test rows) sink := by
  intro test
  have hbuild : ∀ {rows}, rows ≠ [] → c.build (test rows) =
      renderRows c.dialect columns polarity (rows.map (Operand.map (Spec.compile c))) := by
    intro rows hrows
    rw [← render_members hcolumns polarity (mt List.map_eq_nil_iff.1 hrows),
      ← Candidates.map_members]
    rfl
  -- That a row has entries is needed for its text, and known once the test is written.
  have hiff : (∃ sql sink', c.build (test rows) sink = (.ok sql, sink')) ↔
      ∀ row ∈ rows, row.IsRow ∧ ∀ j < columns.length, IsWritable c (entryAt columns row j) := by
    have hsucceeds := succeedsIff_render (d := c.dialect) columns polarity (x := .members rows)
      (fun t _ => Spec.succeedsIff_compile c t) sink
    rw [Candidates.map_members (Spec.Compiles c.registry), renders_members hcolumns,
      List.forall_mem_map] at hsucceeds
    exact hsucceeds.trans (forall₂_congr fun row _ => rowRenders_map_iff)
  refine ⟨hiff, fun sql sink' hrun => ?_, fun rows' hrows' => ?_⟩
  · have hisRow : ∀ row ∈ rows, row.IsRow := fun row hrow =>
      (hiff.1 ⟨sql, sink', hrun⟩ row hrow).1
    rw [hbuild hrows] at hrun
    obtain ⟨matrix, hmatrix, rfl⟩ := exists_matrix hcolumns hisRow hrun
    exact ⟨matrix, hmatrix.length_eq, hmatrix.forall_mem fun row s tuple t htuple =>
      htuple.length_eq.trans (length_selected columns row), hmatrix, rfl⟩
  · have hne : rows' ≠ [] := by
      rintro rfl
      cases hrows'
      exact hrows rfl
    rw [hbuild hne, hbuild hrows, renderRows_eq_of_restates polarity _ hrows']

/-- A row with an entry under another key and none under the first column, and a list that
is too short. -/
theorem build_rows_pair :
    let c : Compiler := ⟨⟨.standard, QuoteStyle.bare.quoter⟩, .standard⟩
    let columns : List PlainColumn := [.name "a", .raw ⟨"b"⟩]
    let one : Operand Spec := .scalar (.value (.int 1))
    let test rows : Condition Spec := .membership columns .negative (.members rows)
    (∃ sql sink', c.build (test [.row [("x", .list []), ("b", one)], .list [one]]) .empty =
      (.ok sql, sink')) ∧
    c.build (test [.list [.scalar .null, one], .list [one]]) .empty =
      c.build (test [.row [("x", .list []), ("b", one)], .list [one]]) .empty := by
  intro c columns one test
  obtain ⟨hiff, -, hsame⟩ := build_rows c columns (by decide) .negative
    [.row [("x", .list []), ("b", one)], .list [one]] (by simp) .empty
  refine ⟨hiff.2 ?_, hsame _ (.cons (.rel _ _ (.positional _)) (.cons (.refl _) .nil))⟩
  simp only [List.forall_mem_cons]
  refine ⟨⟨trivial, fun j hj => ?_⟩, ⟨trivial, fun j hj => ?_⟩, by simp⟩ <;>
    match j, hj with
    | 0, _ => trivial
    | 1, _ => trivial

end Compiler

end WhereClause
