/-
WhereClause/Render/Pattern.lean

Pattern tests.  Where escaping applies, each character of a text gives way to
its replacement in the escape table, and the text may stand anywhere in what is
matched; otherwise the text is the pattern.  Each pattern has a clause of its
own.
-/
import WhereClause.Condition
import WhereClause.Render.Basic

namespace WhereClause

/-- The table by which texts are escaped, if they are. -/
def Options.escapeTable (o : Options) : Escaping → Option (List (Char × String))
  | .standard => if o.escapesLikeValues then some o.effectiveEscaping else none
  | .disabled => none
  | .custom table => some table

namespace Pattern

def escapedChar (table : List (Char × String)) (c : Char) : List Char :=
  match table.lookup c with
  | some replacement => replacement.toList
  | none => [c]

def escaped (table : List (Char × String)) (s : String) : String :=
  String.ofList (s.toList.flatMap (escapedChar table))

/-- The pattern for a text. -/
def ofText (table : Option (List (Char × String))) (s : String) : String :=
  match table with
  | some table => "%" ++ escaped table s ++ "%"
  | none => s

/-- The escape character as an SQL literal, in which a quote is doubled. -/
def escapeClause : Option Char → String
  | none => ""
  | some c => " ESCAPE '" ++ (if c = '\'' then "''" else String.ofList [c]) ++ "'"

/-- The pattern of a text is bound as a text. -/
def render (d : Dialect) (table : Option (List (Char × String))) :
    Pattern (Render String) → Render String
  | .text s => d.bind (.text (ofText table s))
  | .raw sql => pure sql.text
  | .subquery q => do return parenthesized (← q.render d)

/-- A clause for each pattern. -/
def clauses (d : Dialect) (operator : LikeOperator) (column : String)
    (patterns : List String) : List String :=
  patterns.map fun p =>
    column ++ " " ++ operator.core ++ " " ++ p ++ escapeClause d.options.likeEscape

/-- The column is written once, and its text stands in each clause. -/
def renderAll (d : Dialect) (column : Column (Render String)) (operator : LikeOperator)
    (escaping : Escaping) : List (Pattern (Render String)) → Render String
  | [] => pure operator.polarity.overNothing
  | patterns => do
    let column ← column.render d
    let patterns ← patterns.mapM (render d (d.options.escapeTable escaping))
    return (" " ++ operator.junction.text ++ " ").intercalate
      (clauses d operator column patterns)

end Pattern

end WhereClause
