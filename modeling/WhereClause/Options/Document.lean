/-
WhereClause/Options/Document.lean

Options as JSON documents.  Every option has a key of its own; when a document
is read, a missing key leaves its option at the standard value and an unknown
key is passed over, but a value of the wrong kind makes the whole unreadable.
A list of values is read as well: they belong to the keys in the order in which
these are written.
-/
import WhereClause.Options

namespace WhereClause

namespace Json

def string? : Json → Option String
  | .string s => some s
  | _ => none

def bool? : Json → Option Bool
  | .bool b => some b
  | _ => none

/-- A text of one character. -/
def char? (s : String) : Option Char :=
  match s.toList with
  | [c] => some c
  | _ => none

def ofChar (c : Char) : String := String.ofList [c]

end Json

/-! ### The values of single options -/

namespace PlaceholderStyle

def toJson : PlaceholderStyle → Json
  | .named stem => .object [("style", .string "named"), ("prefix", .string stem)]
  | .positional => .object [("style", .string "positional")]

/-- The word for a style and the stem, by key or in a list. -/
def ofJson? : Json → Option PlaceholderStyle
  | .object entries => do
    match ← (← entries.lookup "style").string? with
    | "named" => return .named (← (← entries.lookup "prefix").string?)
    | "positional" => return .positional
    | _ => none
  | .array [.string "named", .string stem] => some (.named stem)
  | .array [.string "positional"] => some .positional
  | _ => none

end PlaceholderStyle

/-- The word for a style, alone or as the only key of an object, over null. -/
def QuoteStyle.ofJson? : Json → Option QuoteStyle
  | .string word => ofWord? word
  | .object [(word, .null)] => ofWord? word
  | _ => none

namespace Options

/-- Null stands for no character. -/
def escapeOfJson? : Json → Option (Option Char)
  | .null => some none
  | .string s => (Json.char? s).map some
  | _ => none

def escapeToJson : Option Char → Json
  | none => .null
  | some c => .string (Json.ofChar c)

def replacementOfJson? (e : String × Json) : Option (Char × String) := do
  return (← Json.char? e.1, ← e.2.string?)

/-- Null stands for no table. -/
def tableOfJson? : Json → Option (Option (List (Char × String)))
  | .null => some none
  | .object entries => (entries.mapM replacementOfJson?).map some
  | _ => none

def tableToJson : Option (List (Char × String)) → Json
  | none => .null
  | some table => .object (table.map fun e => (Json.ofChar e.1, .string e.2))

/-! ### All options -/

def keys : List String :=
  ["placeholder", "quote_style", "like_escape_character", "escape_like_values", "like_escaping"]

def toJson (o : Options) : Json :=
  .object (keys.zip
    [o.placeholder.toJson, .string o.quoteStyle.word, escapeToJson o.likeEscape,
     .bool o.escapesLikeValues, tableToJson o.likeEscaping])

/-- The option under a key, or the standard one where the key is missing. -/
def fieldOr {α : Type} (key : String) (read : Json → Option α) (standard : α)
    (entries : List (String × Json)) : Option α :=
  match entries.lookup key with
  | some j => read j
  | none => some standard

def ofFields? (entries : List (String × Json)) : Option Options := do
  return {
    placeholder :=
      ← fieldOr "placeholder" PlaceholderStyle.ofJson? standard.placeholder entries
    quoteStyle :=
      ← fieldOr "quote_style" QuoteStyle.ofJson? standard.quoteStyle entries
    likeEscape :=
      ← fieldOr "like_escape_character" escapeOfJson? standard.likeEscape entries
    escapesLikeValues :=
      ← fieldOr "escape_like_values" Json.bool? standard.escapesLikeValues entries
    likeEscaping :=
      ← fieldOr "like_escaping" tableOfJson? standard.likeEscaping entries }

/-- A list may end early, but it may not hold more values than there are keys. -/
def ofJson? : Json → Option Options
  | .object entries => ofFields? entries
  | .array items => if items.length ≤ keys.length then ofFields? (keys.zip items) else none
  | _ => none

end Options

end WhereClause
