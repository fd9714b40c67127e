/-
WhereClause/Proofs/Unquoting.lean

Quoting a name that is quoted, and taking its quotes off.  Quoting brings no dot into a
part, so the parts of a quoted name are the quoted parts; each of these is a star or
begins and ends with quotes, and is left alone when it is quoted again.

Main results: the parts of a quoted name (`Identifier.parts_quote`), each of which comes
back whole if it was not taken to be quoted before (`Identifier.unquotePart?_delimit`);
quoting twice is quoting once, and names without quoted parts can be had back
(`QuoteStyle.quote_faithful`).
-/
import WhereClause.Proofs.Quoting

namespace WhereClause

namespace Identifier

open Delimited

variable {q : Char} {part : List Char}

/-! ### Parts of a name -/

theorem parts_ne_nil (name : List Char) : parts name ≠ [] := List.splitOn_ne_nil '.' name

/-- There is no dot in a part. -/
theorem dot_notMem_of_mem_parts {name : List Char} (h : part ∈ parts name) : '.' ∉ part := by
  induction name generalizing part with
  | nil =>
    obtain rfl := List.mem_singleton.1 h
    exact List.not_mem_nil
  | cons c cs ih =>
    rw [parts, List.splitOn_cons_eq_if_modifyHead] at h
    split at h
    · rcases List.mem_cons.1 h with rfl | h
      · exact List.not_mem_nil
      · exact ih h
    · next hc =>
      -- The character belongs to the first part of the rest.
      obtain ⟨first, rest, hparts⟩ := List.exists_cons_of_ne_nil (parts_ne_nil cs)
      have hsplit : cs.splitOn '.' = first :: rest := hparts
      rw [hsplit, List.modifyHead_cons] at h
      rcases List.mem_cons.1 h with rfl | h
      · rw [List.mem_cons, not_or]
        refine ⟨fun hdot => hc (beq_iff_eq.2 hdot.symm), ih ?_⟩
        rw [hparts]
        exact List.mem_cons_self
      · refine ih ?_
        rw [hparts]
        exact List.mem_cons_of_mem _ h

/-- **The parts of a quoted name** are its parts, each of them quoted. -/
theorem parts_quote (hq : q ≠ '.') (name : String) :
    parts (quote q name).toList = (parts name.toList).map (delimit q) := by
  rw [quote, String.toList_ofList, parts, List.splitOn_intercalate '.']
  · intro l hl hdot
    obtain ⟨part, hpart, rfl⟩ := List.mem_map.1 hl
    rcases mem_delimit hdot with h | h
    · exact hq h.symm
    · exact dot_notMem_of_mem_parts hpart h
  · rw [Ne, List.map_eq_nil_iff]
    exact parts_ne_nil name.toList

/-! ### Quoting twice -/

theorem isDelimited_delimit (hstar : part ≠ ['*']) : isDelimited q (delimit q part) = true := by
  cases h : isDelimited q part with
  | true => rw [delimit_of_isDelimited h, h]
  | false =>
    rw [delimit_of_not_isDelimited hstar h, isDelimited, List.getLast?_concat]
    simp

/-- What is quoted already stays as it is. -/
theorem delimit_delimit (q : Char) (part : List Char) :
    delimit q (delimit q part) = delimit q part := by
  by_cases hstar : part = ['*']
  · rw [delimit_eq_star_iff.2 hstar, delimit_eq_star_iff.2 rfl]
  · exact delimit_of_isDelimited (isDelimited_delimit hstar)

theorem quote_quote (hq : q ≠ '.') (name : String) : quote q (quote q name) = quote q name := by
  have htwice : delimit q ∘ delimit q = delimit q := funext (delimit_delimit q)
  rw [quote, parts_quote hq, List.map_map, htwice]
  rfl

/-! ### Taking the quotes off -/

/-- A star stands for itself, anything else is read as a delimited identifier. -/
def unquotePart? (q : Char) (part : List Char) : Option (List Char) :=
  if part = ['*'] then some part else read? q part

/-- The name of which the quoted parts of a text are made, if they all are well-formed. -/
def unquote? (q : Char) (text : String) : Option String :=
  ((parts text.toList).mapM (unquotePart? q)).map fun parts =>
    String.ofList (['.'].intercalate parts)

/-- No part is taken to be quoted before it is. -/
def IsBare (q : Char) (name : String) : Prop :=
  ∀ part ∈ parts name.toList, isDelimited q part = false

/-- A part that was not taken to be quoted comes back whole. -/
theorem unquotePart?_delimit (h : isDelimited q part = false) :
    unquotePart? q (delimit q part) = some part := by
  by_cases hstar : part = ['*']
  · rw [delimit_eq_star_iff.2 hstar, hstar, unquotePart?, if_pos rfl]
  · rw [unquotePart?, if_neg fun heq => hstar (delimit_eq_star_iff.1 heq), read?_delimit hstar h]

theorem mapM_unquotePart?_delimit {ps : List (List Char)}
    (h : ∀ part ∈ ps, isDelimited q part = false) :
    (ps.map (delimit q)).mapM (unquotePart? q) = some ps := by
  induction ps with
  | nil => rfl
  | cons part ps ih =>
    rw [List.map_cons, List.mapM_cons, unquotePart?_delimit (h part List.mem_cons_self),
      ih fun other hother => h other (List.mem_cons_of_mem part hother)]
    rfl

theorem unquote?_quote (hq : q ≠ '.') {name : String} (h : IsBare q name) :
    unquote? q (quote q name) = some name := by
  rw [unquote?, parts_quote hq, mapM_unquotePart?_delimit h, Option.map_some, parts,
    List.intercalate_splitOn, String.ofList_toList]

end Identifier

namespace QuoteStyle

open Identifier

variable {s : QuoteStyle} {q : Char}

/-- No dialect quotes with dots. -/
theorem ne_dot_of_quote? (h : s.quote? = some q) : q ≠ '.' := by
  rintro rfl
  cases s <;> exact absurd h (by decide)

theorem quote_of_quote? (h : s.quote? = some q) (name : String) :
    s.quote name = Identifier.quote q name := by
  rw [quote, h]

/-- A name stays as it is, or has its parts quoted. -/
theorem quote_idempotent (s : QuoteStyle) (name : String) :
    s.quote (s.quote name) = s.quote name := by
  cases hq : s.quote? with
  | none => simp only [quote, hq]
  | some q => rw [quote_of_quote? hq, quote_of_quote? hq, quote_quote (ne_dot_of_quote? hq)]

theorem length_parts_quote (s : QuoteStyle) (name : String) :
    (parts (s.quote name).toList).length = (parts name.toList).length := by
  cases hq : s.quote? with
  | none => simp only [quote, hq]
  | some q => rw [quote_of_quote? hq, parts_quote (ne_dot_of_quote? hq), List.length_map]

/-- **Quoting is idempotent and faithful.**  Quoting twice is quoting once, and no part
is added or lost; a name without quoted parts is had back by taking off the quotes, and
so is told by its identifier from all others. -/
theorem quote_faithful (s : QuoteStyle) :
    (∀ name, s.quote (s.quote name) = s.quote name ∧
      (parts (s.quote name).toList).length = (parts name.toList).length) ∧
    ∀ q, s.quote? = some q →
      (∀ name, IsBare q name → unquote? q (s.quote name) = some name) ∧
      ∀ name name', IsBare q name → IsBare q name' → s.quote name = s.quote name' →
        name = name' := by
  refine ⟨fun name => ⟨quote_idempotent s name, length_parts_quote s name⟩, fun q hq => ?_⟩
  have hback (name : String) (h : IsBare q name) : unquote? q (s.quote name) = some name := by
    rw [quote_of_quote? hq, unquote?_quote (ne_dot_of_quote? hq) h]
  refine ⟨hback, fun name name' h h' heq => Option.some.inj ?_⟩
  rw [← hback name h, heq, hback name' h']

/-- A lone quote, a star, an empty part and a part that ends in quotes. -/
theorem quote_faithful_runs :
    let name := "\".*..a\"\""
    QuoteStyle.double.quote name = "\"\"\"\".*.\"\".\"a\"\"\"\"\"" ∧
      QuoteStyle.double.quote (QuoteStyle.double.quote name) = QuoteStyle.double.quote name ∧
      unquote? '"' (QuoteStyle.double.quote name) = some name ∧
      QuoteStyle.double.quote name ≠ QuoteStyle.double.quote "\".*..a\"" := by
  have hbare : IsBare '"' "\".*..a\"\"" := by
    unfold IsBare
    decide +kernel
  have hbare' : IsBare '"' "\".*..a\"" := by
    unfold IsBare
    decide +kernel
  refine ⟨by decide +kernel, ((quote_faithful .double).1 _).1,
    ((quote_faithful .double).2 '"' rfl).1 _ hbare, fun heq => ?_⟩
  exact absurd (((quote_faithful .double).2 '"' rfl).2 _ _ hbare hbare' heq) (by decide)

end QuoteStyle

end WhereClause
