/-
WhereClause/Options.lean

What a compiler can be told: how placeholders and identifiers are written, and
how texts are made into patterns.
-/
import WhereClause.Identifier
import WhereClause.Sink

namespace WhereClause

structure Options where
  placeholder : PlaceholderStyle
  quoteStyle : QuoteStyle
  /-- The character that every pattern test declares in an `ESCAPE` clause. -/
  likeEscape : Option Char
  /-- Whether the texts of pattern tests without an escape table are escaped. -/
  escapesLikeValues : Bool
  /-- What replaces which character; the wildcards and the escape character are
  escaped if there is no table. -/
  likeEscaping : Option (List (Char × String))
  deriving DecidableEq

namespace Options

def standard : Options where
  placeholder := .named "p"
  quoteStyle := .bare
  likeEscape := none
  escapesLikeValues := true
  likeEscaping := none

/-- The table that escapes both wildcards and the escape character itself. -/
def wildcardEscaping (escape : Char) : List (Char × String) :=
  Keyed.ofPairs (['%', '_', escape].map fun c => (c, String.ofList [escape, c]))

/-- A database takes a backslash as escape character if none is declared. -/
def effectiveEscaping (o : Options) : List (Char × String) :=
  match o.likeEscaping with
  | some table => table
  | none => wildcardEscaping (o.likeEscape.getD '\\')

/-- Equality, whatever the order of the escape table. -/
def same (o p : Options) : Bool :=
  let table := fun (t : List (Char × String)) (u : List (Char × String)) =>
    t.length == u.length && t.all fun e => u.lookup e.1 == some e.2
  { o with likeEscaping := none } == { p with likeEscaping := none } &&
    match o.likeEscaping, p.likeEscaping with
    | none, none => true
    | some t, some u => table t u
    | _, _ => false

end Options

end WhereClause
