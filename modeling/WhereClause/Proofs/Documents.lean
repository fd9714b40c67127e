/-
WhereClause/Proofs/Documents.lean

Options that are written as a document and read again.  Each option is written under a key
of its own, and reading looks for one key after the other; so neither the order of the
entries matters nor which of them there are, and an entry that is missing costs the option
under its key alone.

Main results: the value of each option is read back (`PlaceholderStyle.ofJson?_toJson`,
`Options.escapeOfJson?_escapeToJson`, `Options.tableOfJson?_tableToJson`), and so are all
options from the whole document, or those from any part of it, the rest being standard
(`Options.ofJson?_part`).
-/
import Mathlib.Data.List.Perm.Subperm
import WhereClause.Options.Document

namespace WhereClause

/-! ### Single options -/

theorem Json.char?_ofChar (c : Char) : Json.char? (Json.ofChar c) = some c := by
  rw [Json.char?, Json.ofChar, String.toList_ofList]

theorem PlaceholderStyle.ofJson?_toJson (style : PlaceholderStyle) :
    ofJson? style.toJson = some style := by
  cases style with
  | named stem => rfl
  | positional => rfl

theorem QuoteStyle.ofJson?_word (q : QuoteStyle) : ofJson? (.string q.word) = some q := by
  cases q with
  | bare => rfl
  | double => rfl
  | backtick => rfl

namespace Options

theorem escapeOfJson?_escapeToJson (c : Option Char) :
    escapeOfJson? (escapeToJson c) = some c := by
  cases c with
  | none => rfl
  | some c => rw [escapeToJson, escapeOfJson?, Json.char?_ofChar, Option.map_some]

theorem replacementOfJson?_ofChar (c : Char) (s : String) :
    replacementOfJson? (Json.ofChar c, .string s) = some (c, s) := by
  rw [replacementOfJson?, Json.char?_ofChar]
  rfl

/-- The entries of a table come back one by one, in their order. -/
theorem tableOfJson?_tableToJson (table : Option (List (Char × String))) :
    tableOfJson? (tableToJson table) = some table := by
  cases table with
  | none => rfl
  | some table =>
    have hentries : (table.map fun e => (Json.ofChar e.1, Json.string e.2)).mapM
        replacementOfJson? = some table := by
      induction table with
      | nil => rfl
      | cons e table ih =>
        rw [List.map_cons, List.mapM_cons, replacementOfJson?_ofChar, ih]
        rfl
    rw [tableToJson, tableOfJson?, hentries, Option.map_some]

/-! ### Entries of a document -/

/-- What the document of some options holds. -/
def fields (o : Options) : List (String × Json) :=
  keys.zip
    [o.placeholder.toJson, .string o.quoteStyle.word, escapeToJson o.likeEscape,
     .bool o.escapesLikeValues, tableToJson o.likeEscaping]

theorem toJson_eq (o : Options) : o.toJson = .object o.fields := rfl

theorem keys_fields (o : Options) : o.fields.map (·.1) = keys := rfl

/-- Options under some keys, and the standard ones otherwise. -/
def under (o : Options) (present : List String) : Options where
  placeholder := if "placeholder" ∈ present then o.placeholder else standard.placeholder
  quoteStyle := if "quote_style" ∈ present then o.quoteStyle else standard.quoteStyle
  likeEscape := if "like_escape_character" ∈ present then o.likeEscape else standard.likeEscape
  escapesLikeValues :=
    if "escape_like_values" ∈ present then o.escapesLikeValues else standard.escapesLikeValues
  likeEscaping := if "like_escaping" ∈ present then o.likeEscaping else standard.likeEscaping

theorem under_keys (o : Options) : o.under keys = o := rfl

variable {o : Options} {entries : List (String × Json)}

/-- Some of the entries, in any order, say nothing under a key that all of them do not. -/
theorem lookup_of_subperm (h : entries.Subperm o.fields) {key : String} {j : Json}
    (hj : entries.lookup key = some j) : o.fields.lookup key = some j := by
  have hkeys : (o.fields.map (·.1)).Nodup := by
    rw [keys_fields]
    decide
  exact Keyed.lookup_eq_some_of_mem hkeys (h.subset (Keyed.mem_of_lookup hj))

/-- An option is had from its entry, or is standard if that is not among those there are. -/
theorem fieldOr_of_subperm (h : entries.Subperm o.fields) {α : Type} {key : String}
    {written : Json} {read : Json → Option α} {a standard : α}
    (hwritten : o.fields.lookup key = some written) (hread : read written = some a) :
    fieldOr key read standard entries =
      some (if key ∈ entries.map (·.1) then a else standard) := by
  rw [fieldOr]
  -- The keys of the options are distinct, so an entry under this one is the one written.
  cases hj : entries.lookup key with
  | some j =>
    have hkey : key ∈ entries.map (·.1) := List.mem_map_of_mem (Keyed.mem_of_lookup hj)
    obtain rfl : written = j := by
      rw [← Option.some_inj, ← hwritten]
      exact lookup_of_subperm h hj
    rw [if_pos hkey]
    exact hread
  | none =>
    have hkey : key ∉ entries.map (·.1) := by
      intro hkey
      obtain ⟨e, he, rfl⟩ := List.mem_map.1 hkey
      have hne := List.lookup_eq_none_iff.1 hj e he
      simp at hne
    rw [if_neg hkey]

/-- Any part of a document is read as the options under its keys. -/
theorem ofFields?_of_subperm (h : entries.Subperm o.fields) :
    ofFields? entries = some (o.under (entries.map (·.1))) := by
  have hbool : Json.bool? (.bool o.escapesLikeValues) = some o.escapesLikeValues := rfl
  rw [ofFields?, fieldOr_of_subperm h rfl (PlaceholderStyle.ofJson?_toJson o.placeholder),
    fieldOr_of_subperm h rfl (QuoteStyle.ofJson?_word o.quoteStyle),
    fieldOr_of_subperm h rfl (escapeOfJson?_escapeToJson o.likeEscape),
    fieldOr_of_subperm h rfl hbool,
    fieldOr_of_subperm h rfl (tableOfJson?_tableToJson o.likeEscaping)]
  rfl

/-- **Options are read back from their document**, with their escape table in its order;
and where entries are left out of the document, in whatever order the others stand, the
options under their keys are the standard ones, and all others as they were. -/
theorem ofJson?_part (o : Options) :
    ofJson? o.toJson = some o ∧
      (ofJson? o.toJson).map effectiveEscaping = some o.effectiveEscaping ∧
      ∃ all, o.toJson = .object all ∧ all.map (·.1) = keys ∧
        ∀ part : List (String × Json), part.Subperm all →
          ofJson? (.object part) = some (o.under (part.map (·.1))) := by
  have hpart (part : List (String × Json)) (h : part.Subperm o.fields) :
      ofJson? (.object part) = some (o.under (part.map (·.1))) := ofFields?_of_subperm h
  have hall : ofJson? o.toJson = some o := by
    rw [toJson_eq, hpart o.fields (List.Subperm.refl _), keys_fields, under_keys]
  refine ⟨hall, ?_, o.fields, toJson_eq o, keys_fields o, hpart⟩
  rw [hall, Option.map_some]

/-- Two of the five entries, the last one first, with a table that is not sorted. -/
theorem ofJson?_part_two :
    let o : Options := {
      standard with
      quoteStyle := .backtick
      likeEscape := some '!'
      likeEscaping := some [('_', "!_"), ('%', "")] }
    ofJson? (.object [("like_escaping", .object [("_", .string "!_"), ("%", .string "")]),
        ("quote_style", .string "backtick")]) = some { o with likeEscape := none } := by
  intro o
  obtain ⟨-, -, all, hall, -, hpart⟩ := ofJson?_part o
  obtain rfl : o.fields = all := Json.object.inj hall
  refine hpart _ ⟨_, List.Perm.swap _ _ [], ?_⟩
  exact .cons _ (.cons_cons _ (.cons _ (.cons _ (.cons_cons _ .slnil))))

end Options

end WhereClause
