/-
WhereClause/Environment.lean

Options from an environment of named settings.  The settings are checked one
after the other, in the order of `Options.ofEnvironment`, and the first that
cannot be understood is the answer; a setting that is absent leaves its option
at the standard value.  Words may be written in any case.
-/
import WhereClause.Options

namespace WhereClause

/-- Values by name. -/
structure Environment where
  get? : String → Option String

/-- A later value for a name replaces an earlier one. -/
def Environment.ofPairs (ps : List (String × String)) : Environment :=
  ⟨fun key => (Keyed.ofPairs ps).lookup key⟩

/-! ### Settings -/

inductive Setting where
  | placeholder
  | placeholderStem
  | quoteStyle
  | likeEscape
  | escapesLikeValues
  deriving DecidableEq

def Setting.key : Setting → String
  | .placeholder => "SQL_CONDITION_PLACEHOLDER"
  | .placeholderStem => "SQL_CONDITION_PLACEHOLDER_PREFIX"
  | .quoteStyle => "SQL_CONDITION_QUOTE_STYLE"
  | .likeEscape => "SQL_CONDITION_LIKE_ESCAPE_CHAR"
  | .escapesLikeValues => "SQL_CONDITION_ESCAPE_LIKE_VALUES"

def Setting.expectation : Setting → String
  | .placeholder => "Expected one of 'named' or 'positional'"
  | .placeholderStem =>
    "Expected letters, digits, and underscores, not starting with a digit"
  | .quoteStyle => "Expected one of 'none', 'double', or 'backtick'"
  | .likeEscape => "Expected a single character"
  | .escapesLikeValues =>
    "Expected true, 1, yes, on, enabled, enable OR false, 0, no, off, disabled, disable"

inductive ConfigError where
  /-- The value of a key that must be a word for yes or no. -/
  | notBoolean (key value : String)
  | notAllowed (setting : Setting) (value : String)
  deriving DecidableEq

def ConfigError.message : ConfigError → String
  | .notBoolean key value =>
    "Invalid value for " ++ key ++ ": " ++ value ++ ". " ++
      Setting.escapesLikeValues.expectation
  | .notAllowed setting value =>
    "Invalid env value " ++ value ++ " for " ++ setting.key ++ ": " ++ setting.expectation

/-! ### Words -/

/-- Lower case, as far as words of ASCII letters go: besides the capital letters
only the Kelvin sign has such a letter for its lower case. -/
def foldedChar (c : Char) : Char := if c = '\u212a' then 'k' else c.toLower

def folded (s : String) : String := String.ofList (s.toList.map foldedChar)

/-- The truth value that a word stands for. -/
def truthOfWord? : String → Option Bool
  | "true" | "1" | "yes" | "on" | "enabled" | "enable" => some true
  | "false" | "0" | "no" | "off" | "disabled" | "disable" => some false
  | _ => none

inductive StyleWord where
  | named
  | positional

def StyleWord.ofWord? : String → Option StyleWord
  | "named" => some .named
  | "positional" => some .positional
  | _ => none

def isStemStart (c : Char) : Bool := c.isAlpha || c = '_'

def isStemChar (c : Char) : Bool := c.isAlphanum || c = '_'

/-- Letters, digits and underscores, with no digit at the beginning. -/
def isStem (s : String) : Bool :=
  match s.toList with
  | [] => false
  | c :: cs => isStemStart c && (c :: cs).all isStemChar

/-! ### Reading -/

namespace Environment

/-- Whether a key is switched on. -/
def enabled (env : Environment) (key : String) (standard : Bool) : Except ConfigError Bool :=
  match env.get? key with
  | none => .ok standard
  | some value =>
    match truthOfWord? (folded value) with
    | some b => .ok b
    | none => .error (.notBoolean key value)

/-- The meaning of a setting, if it is present. -/
def setting {α : Type} (env : Environment) (s : Setting) (read : String → Option α) :
    Except ConfigError (Option α) :=
  match env.get? s.key with
  | none => .ok none
  | some value =>
    match read value with
    | some a => .ok (some a)
    | none => .error (.notAllowed s value)

end Environment

/-- A stem alone asks for named placeholders. -/
def PlaceholderStyle.ofSettings (stem : Option String) : Option StyleWord → PlaceholderStyle
  | some .positional => .positional
  | some .named | none => .named (stem.getD "p")

def Options.ofEnvironment (env : Environment) : Except ConfigError Options := do
  let stem ← env.setting .placeholderStem fun s => if isStem s then some s else none
  let style ← env.setting .placeholder fun s => StyleWord.ofWord? (folded s)
  let quoteStyle ← env.setting .quoteStyle fun s => QuoteStyle.ofWord? (folded s)
  let likeEscape ← env.setting .likeEscape fun s =>
    match s.toList with
    | [c] => some c
    | _ => none
  let escapesLikeValues ←
    env.enabled Setting.escapesLikeValues.key standard.escapesLikeValues
  return {
    placeholder := .ofSettings stem style
    quoteStyle := quoteStyle.getD standard.quoteStyle
    likeEscape
    escapesLikeValues
    likeEscaping := standard.likeEscaping }

end WhereClause
