/-
WhereClause/Identifier.lean

Names of columns and tables as they are written in a query.  A dotted name is
quoted part by part: a star and a part that is quoted already stay as they are,
and in any other part each quote character is doubled.
-/

namespace WhereClause

/-- Turns names into identifiers of a dialect. -/
structure Quoter where
  column : String → String
  table : String → String

namespace Identifier

/-- Whether a part begins and ends with its own quote characters. -/
def isDelimited (quote : Char) (part : List Char) : Bool :=
  2 ≤ part.length && part.head? == some quote && part.getLast? == some quote

/-- Each quote character twice. -/
def doubled (quote : Char) (part : List Char) : List Char :=
  part.flatMap fun c => if c = quote then [quote, quote] else [c]

def delimit (quote : Char) (part : List Char) : List Char :=
  if part = ['*'] ∨ isDelimited quote part then part
  else quote :: doubled quote part ++ [quote]

/-- The parts of a name between its dots. -/
def parts (name : List Char) : List (List Char) := name.splitOn '.'

def quote (q : Char) (name : String) : String :=
  String.ofList (['.'].intercalate ((parts name.toList).map (delimit q)))

end Identifier

/-- The quotes around identifiers. -/
inductive QuoteStyle where
  /-- Names as they are given. -/
  | bare
  /-- Double quotes, as in standard SQL. -/
  | double
  /-- Backticks, as in MySQL. -/
  | backtick
  deriving DecidableEq

namespace QuoteStyle

def quote? : QuoteStyle → Option Char
  | .bare => none
  | .double => some '"'
  | .backtick => some '\x60'

def quote (s : QuoteStyle) (name : String) : String :=
  match s.quote? with
  | none => name
  | some q => Identifier.quote q name

/-- The word for a style. -/
def word : QuoteStyle → String
  | .bare => "none"
  | .double => "double"
  | .backtick => "backtick"

def ofWord? : String → Option QuoteStyle
  | "none" => some .bare
  | "double" => some .double
  | "backtick" => some .backtick
  | _ => none

/-- Columns and tables are quoted alike. -/
def quoter (s : QuoteStyle) : Quoter := ⟨s.quote, s.quote⟩

end QuoteStyle

namespace Quoter

/-- A name with a parenthesis is an expression and is left alone. -/
def isExpression (name : String) : Bool := name.toList.contains '('

def columnName (q : Quoter) (name : String) : String :=
  if isExpression name then name else q.column name

def tableName (q : Quoter) (name : String) : String :=
  if isExpression name then name else q.table name

end Quoter

end WhereClause
