/-
WhereClause/Sink.lean

The sink: the values bound so far, each under a name of its own, in the order in
which they were bound.

Binding gives a value a fresh name.  The names of a style are numbered, and
counting starts at the number of entries, so that on a sink filled by one style
each number is the place of its value; a number whose name is taken is passed
over.  Names made of digits alone are kept for positional placeholders, and
`insert` refuses them.
-/
import WhereClause.Error
import WhereClause.Keyed

namespace WhereClause

/-! ### Placeholders -/

/-- How placeholders are named and written. -/
inductive PlaceholderStyle where
  /-- `:p0`, `:p1` and so on, for the stem `p`. -/
  | named (stem : String)
  /-- `$1`, `$2` and so on. -/
  | positional
  deriving DecidableEq

namespace PlaceholderStyle

/-- The name of the placeholder with a number, counted from zero. -/
def name : PlaceholderStyle → Nat → String
  | .named stem, n => stem ++ n.repr
  | .positional, n => (n + 1).repr

/-- The placeholder of a name, as it stands in a query. -/
def render : PlaceholderStyle → String → String
  | .named _, name => ":" ++ name
  | .positional, name => "$" ++ name

end PlaceholderStyle

/-! ### The sink -/

structure Sink where
  entries : List (String × Value)

namespace Sink

def empty : Sink := ⟨[]⟩

def names (s : Sink) : List String := s.entries.map (·.1)

def values (s : Sink) : List Value := s.entries.map (·.2)

def size (s : Sink) : Nat := s.entries.length

def isEmpty (s : Sink) : Bool := s.entries.isEmpty

def get? (s : Sink) (name : String) : Option Value := s.entries.lookup name

def contains (s : Sink) (name : String) : Bool := s.names.contains name

/-- The first free number from `n` on, `fuel` numbers at most being taken. -/
def firstFree (isFree : Nat → Bool) : Nat → Nat → Nat
  | 0, n => n
  | fuel + 1, n => if isFree n then n else firstFree isFree fuel (n + 1)

/-- The number of the next placeholder: the first from the size of the sink on
whose name is free.  There are as many names to pass over as entries. -/
def nextOrdinal (style : PlaceholderStyle) (s : Sink) : Nat :=
  firstFree (fun n => !s.contains (style.name n)) s.size s.size

def append (name : String) (v : Value) (s : Sink) : Sink := ⟨s.entries ++ [(name, v)]⟩

/-- Bind a value to a fresh name; the answer is its placeholder. -/
def bind (style : PlaceholderStyle) (v : Value) (s : Sink) : String × Sink :=
  let name := style.name (s.nextOrdinal style)
  (style.render name, s.append name v)

/-- Whether a name is kept for positional placeholders, or is no name at all. -/
def isReserved (name : String) : Bool := name.toList.all Char.isDigit

/-- Put a value under a name of the caller's choice; the answer is the value
that the name had before. -/
def insert (name : String) (v : Value) (s : Sink) : Except Error (Option Value × Sink) :=
  if isReserved name then .error (.invalidParameterName name)
  else .ok (s.get? name, ⟨Keyed.put name v s.entries⟩)

/-- Whether two sinks bind the same values to the same names, in any order. -/
def same (s t : Sink) : Bool :=
  s.size == t.size && s.entries.all fun e =>
    match t.get? e.1 with
    | some v => e.2.same v
    | none => false

end Sink

end WhereClause
