/-
WhereClause/Operator.lean

Operator tokens.  Two tokens are the same operator if they agree after the
white space around and between their words is made single and their letters
are made upper case.
-/
import WhereClause.Text.Blank
import WhereClause.Text.Uppercase

namespace WhereClause

namespace Operator

/-- The words of a token in upper case, one space between them. -/
def normalize (token : String) : String :=
  String.ofList (Text.uppercase ([' '].intercalate (Text.words token.toList)))

end Operator

/-! ### The parts of operators -/

/-- What joins several clauses. -/
inductive Junction where
  | and
  | or
  deriving DecidableEq

def Junction.text : Junction → String
  | .and => "AND"
  | .or => "OR"

/-- The junction that a normalized token names. -/
def Junction.ofToken? : String → Option Junction
  | "AND" => some .and
  | "OR" => some .or
  | _ => none

/-- Whether an operator stands plainly or behind `NOT`. -/
inductive Polarity where
  | positive
  | negative
  deriving DecidableEq

namespace Polarity

/-- The operator `base` in this polarity. -/
def apply (p : Polarity) (base : String) : String :=
  match p with
  | .positive => base
  | .negative => "NOT " ++ base

/-- The polarity in which a normalized token is `base`. -/
def ofToken? (base token : String) : Option Polarity :=
  if token = base then some .positive
  else if token = "NOT " ++ base then some .negative
  else none

/-- A test against nothing at all: always false, and vacuous when negated. -/
def overNothing : Polarity → String
  | .positive => "0=1"
  | .negative => ""

end Polarity

/-! ### Pattern operators -/

/-- A pattern operator: what joins the clauses, whether each is negated, and
whether case matters. -/
structure LikeOperator where
  junction : Junction
  polarity : Polarity
  ignoresCase : Bool
  deriving DecidableEq

namespace LikeOperator

def base (o : LikeOperator) : String := if o.ignoresCase then "ILIKE" else "LIKE"

/-- The operator of a single clause. -/
def core (o : LikeOperator) : String := o.polarity.apply o.base

/-- The operator that a normalized token names; `AND` may be left out. -/
def ofToken? : String → Option LikeOperator
  | "LIKE" | "AND LIKE" => some ⟨.and, .positive, false⟩
  | "NOT LIKE" | "AND NOT LIKE" => some ⟨.and, .negative, false⟩
  | "OR LIKE" => some ⟨.or, .positive, false⟩
  | "OR NOT LIKE" => some ⟨.or, .negative, false⟩
  | "ILIKE" | "AND ILIKE" => some ⟨.and, .positive, true⟩
  | "NOT ILIKE" | "AND NOT ILIKE" => some ⟨.and, .negative, true⟩
  | "OR ILIKE" => some ⟨.or, .positive, true⟩
  | "OR NOT ILIKE" => some ⟨.or, .negative, true⟩
  | _ => none

end LikeOperator

/-! ### Comparison operators

These are written into the query as they stand, so nothing else may pass. -/

def comparisonSymbols : List Char := "=<>!~@#&|^?-+*/%".toList

def comparisonKeywords : List String :=
  ["IS", "IS NOT", "IS DISTINCT FROM", "IS NOT DISTINCT FROM", "SIMILAR TO",
   "NOT SIMILAR TO", "REGEXP", "NOT REGEXP", "RLIKE", "NOT RLIKE", "GLOB", "MATCH"]

/-- The pairs of symbols that begin or end a comment. -/
def commentMarks : List (Char × Char) := [('-', '-'), ('/', '*'), ('*', '/')]

/-- A run of symbols in which no comment begins or ends. -/
def isSymbolic (cs : List Char) : Bool :=
  !cs.isEmpty && cs.all (comparisonSymbols.contains ·) &&
    (cs.zip cs.tail).all fun p => !commentMarks.contains p

def isComparison (token : String) : Bool :=
  isSymbolic token.toList || comparisonKeywords.contains token

/-- An operator that is safe to write between two operands. -/
structure ComparisonOperator where
  text : String
  isComparison_text : isComparison text = true

def ComparisonOperator.ofToken? (token : String) : Option ComparisonOperator :=
  if h : isComparison token = true then some ⟨token, h⟩ else none

end WhereClause
