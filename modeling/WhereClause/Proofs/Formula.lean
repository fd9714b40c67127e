/-
WhereClause/Proofs/Formula.lean

Formulas over tests, and how they are read back from text: what stands in
parentheses is read first, then `NOT`, then `AND`, then `OR`.  The reader goes
through the tokens once and keeps, for each parenthesis that is open, what has
been joined by `OR`, what has been joined by `AND` since, and the negations that
wait for an operand.

Main results: operands that are joined read as their junction, whatever they are
(`Token.Stands.joined`), and what stands for itself is an operand once it is in
parentheses (`Token.Stands.parenthesized`).
-/
import Mathlib.Data.List.Forall2
import WhereClause.Operator

namespace WhereClause

/-! ### Truth -/

/-- The truth values of conditions. -/
inductive Truth where
  | false
  | unknown
  | true
  deriving DecidableEq

namespace Truth

def not : Truth → Truth
  | .false => .true
  | .unknown => .unknown
  | .true => .false

def and : Truth → Truth → Truth
  | .true, b => b
  | .false, _ => .false
  | .unknown, .false => .false
  | .unknown, _ => .unknown

def or : Truth → Truth → Truth
  | .false, b => b
  | .true, _ => .true
  | .unknown, .true => .true
  | .unknown, _ => .unknown

end Truth

def Junction.truth : Junction → Truth → Truth → Truth
  | .and => .and
  | .or => .or

/-! ### Formulas -/

inductive Formula (A : Type) where
  | test (a : A)
  | negation (f : Formula A)
  | junction (j : Junction) (f g : Formula A)
  deriving DecidableEq

namespace Formula

variable {A B : Type}

/-- The truth of a formula when the truth of its tests is given. -/
def value (v : A → Truth) : Formula A → Truth
  | .test a => v a
  | .negation f => (f.value v).not
  | .junction j f g => j.truth (f.value v) (g.value v)

def map (φ : A → B) : Formula A → Formula B
  | .test a => .test (φ a)
  | .negation f => .negation (f.map φ)
  | .junction j f g => .junction j (f.map φ) (g.map φ)

/-- One formula and more, all joined. -/
def joined (j : Junction) (f : Formula A) (fs : List (Formula A)) : Formula A :=
  fs.foldl (.junction j) f

/-- All of some formulas joined, if there are any. -/
def joined? (j : Junction) : List (Formula A) → Option (Formula A)
  | [] => none
  | f :: fs => some (joined j f fs)

/-- A junction of labelled tests comes from a junction of labels. -/
theorem exists_of_map_eq_joined {φ : A → B} {j : Junction} {g : Formula A} {f : Formula B}
    {fs : List (Formula B)} (h : g.map φ = joined j f fs) :
    ∃ g₀ gs, g = joined j g₀ gs ∧ g₀.map φ = f ∧ gs.map (map φ) = fs := by
  induction fs generalizing f with
  | nil => exact ⟨g, [], rfl, h, rfl⟩
  | cons f' fs ih =>
    obtain ⟨g₁, gs, rfl, hg₁, rfl⟩ := ih h
    cases g₁ with
    | test a => exact absurd hg₁ (by simp [map])
    | negation g₀ => exact absurd hg₁ (by simp [map])
    | junction j' g₀ g' =>
      -- What was joined last is on the outside.
      obtain ⟨rfl, rfl, rfl⟩ : j' = j ∧ g₀.map φ = f ∧ g'.map φ = f' := by
        simpa [map] using hg₁
      exact ⟨g₀, g' :: gs, rfl, rfl, rfl⟩

end Formula

/-! ### Tokens -/

inductive Token (A : Type) where
  | opening
  | closing
  | negation
  | junction (j : Junction)
  | test (a : A)

namespace Token

variable {A : Type}

/-- A token as it is written, given the texts of the tests. -/
def spell (text : A → String) : Token A → String
  | .opening => "("
  | .closing => ")"
  | .negation => "NOT "
  | .junction j => " " ++ j.text ++ " "
  | .test a => text a

def spellAll (text : A → String) (ts : List (Token A)) : String :=
  String.join (ts.map (spell text))

/-! ### Reading -/

/-- What has been read since a parenthesis was opened. -/
structure Pending (A : Type) where
  /-- What is joined by `OR` so far. -/
  alternatives : Option (Formula A)
  /-- What is joined by `AND` since the last `OR`. -/
  factors : Option (Formula A)
  /-- The negations that the next operand is under. -/
  negations : Nat

namespace Pending

def start : Pending A := ⟨none, none, 0⟩

def join (j : Junction) : Option (Formula A) → Formula A → Formula A
  | none, f => f
  | some g, f => .junction j g f

def negate : Nat → Formula A → Formula A
  | 0, f => f
  | n + 1, f => negate n (.negation f)

/-- An operand has been read. -/
def supply (p : Pending A) (f : Formula A) : Pending A :=
  ⟨p.alternatives, some (join .and p.factors (negate p.negations f)), 0⟩

/-- All that has been read, as one formula. -/
def result? (p : Pending A) : Option (Formula A) := p.factors.map (join .or p.alternatives)

end Pending

/-- What is read, what is open around it, and whether an operand came last. -/
structure Reader (A : Type) where
  current : Pending A
  enclosing : List (Pending A)
  isComplete : Bool

def Reader.step : Reader A → Token A → Option (Reader A)
  | ⟨p, ps, false⟩, .test a => some ⟨p.supply (.test a), ps, true⟩
  | ⟨p, ps, false⟩, .opening => some ⟨.start, p :: ps, false⟩
  | ⟨p, ps, false⟩, .negation =>
    some ⟨⟨p.alternatives, p.factors, p.negations + 1⟩, ps, false⟩
  | ⟨p, ps, true⟩, .junction .and => some ⟨p, ps, false⟩
  | ⟨p, ps, true⟩, .junction .or => some ⟨⟨p.result?, none, 0⟩, ps, false⟩
  | ⟨p, q :: ps, true⟩, .closing => p.result?.map fun f => ⟨q.supply f, ps, true⟩
  | _, _ => none

/-- The formula that tokens stand for, if they are well formed. -/
def read? (ts : List (Token A)) : Option (Formula A) :=
  match ts.foldlM Reader.step ⟨.start, [], false⟩ with
  | some ⟨p, [], true⟩ => p.result?
  | _ => none

/-- The truth of what is read. -/
def value? (v : A → Truth) (ts : List (Token A)) : Option Truth := (read? ts).map (·.value v)

/-! ### Tokens in their places -/

/-- Tokens that read as a formula when they stand alone, or alone in parentheses. -/
def Stands (ts : List (Token A)) (f : Formula A) : Prop :=
  ∀ ps, ∃ p, ts.foldlM Reader.step ⟨.start, ps, false⟩ = some ⟨p, ps, true⟩ ∧
    p.result? = some f

/-- Tokens that read as a formula wherever an operand may stand. -/
def IsOperand (ts : List (Token A)) (f : Formula A) : Prop :=
  ∀ p ps, ts.foldlM Reader.step ⟨p, ps, false⟩ = some ⟨p.supply f, ps, true⟩

theorem read?_of_stands {ts : List (Token A)} {f : Formula A} (h : Stands ts f) :
    read? ts = some f := by
  obtain ⟨p, hrun, hresult⟩ := h []
  rw [read?, hrun]
  exact hresult

theorem IsOperand.stands {ts : List (Token A)} {f : Formula A} (h : IsOperand ts f) :
    Stands ts f :=
  fun ps => ⟨Pending.supply .start f, h .start ps, rfl⟩

theorem IsOperand.of_test (a : A) : IsOperand [.test a] (.test a) := fun _ _ => rfl

theorem IsOperand.negation {ts : List (Token A)} {f : Formula A} (h : IsOperand ts f) :
    IsOperand (.negation :: ts) (.negation f) := fun _ _ => h _ _

theorem Stands.parenthesized {ts : List (Token A)} {f : Formula A} (h : Stands ts f) :
    IsOperand (.opening :: ts ++ [.closing]) f := by
  intro p ps
  -- Inside the parenthesis nothing is pending, and what was before is kept for its end.
  obtain ⟨q, hrun, hresult⟩ := h (p :: ps)
  have hopened : (Token.opening :: ts).foldlM Reader.step ⟨p, ps, false⟩ =
      some ⟨q, p :: ps, true⟩ := hrun
  rw [List.foldlM_append, hopened]
  show (q.result?.map fun g => (⟨p.supply g, ps, true⟩ : Reader A)).bind some = _
  rw [hresult]
  rfl

/-! ### Junctions -/

/-- The tokens of some operands behind a first one, each after the junction. -/
def joinedTail (j : Junction) (tss : List (List (Token A))) : List (Token A) :=
  tss.flatMap (.junction j :: ·)

/-- What is pending if only operands under `j` have been read. -/
def Pending.Holds (j : Junction) (p : Pending A) (f : Formula A) : Prop :=
  p.result? = some f ∧ p.negations = 0 ∧ (j = .and → p.alternatives = none)

/-- One more operand under the same junction is joined to those before. -/
theorem Pending.Holds.step {j : Junction} {p : Pending A} {f g : Formula A} {ts : List (Token A)}
    (hp : p.Holds j f) (h : IsOperand ts g) (ps : List (Pending A)) :
    ∃ q : Pending A, (Token.junction j :: ts).foldlM Reader.step ⟨p, ps, true⟩ =
      some ⟨q, ps, true⟩ ∧ q.Holds j (.junction j f g) := by
  obtain ⟨hresult, hnegations, halternatives⟩ := hp
  cases j with
  | and =>
    -- There are no alternatives yet, so the factors are all that has been read.
    refine ⟨p.supply g, h p ps, ?_, rfl, halternatives⟩
    rw [result?, halternatives rfl] at hresult
    have hfactors : p.factors = some f := by
      cases hp : p.factors with
      | none => simp [hp] at hresult
      | some f' =>
        rw [hp] at hresult
        exact hresult
    rw [result?, supply, hfactors, hnegations, halternatives rfl]
    rfl
  | or =>
    -- What has been read becomes the alternatives, and the operand the only factor.
    refine ⟨Pending.supply ⟨p.result?, none, 0⟩ g, h _ ps, ?_, rfl, by simp⟩
    rw [hresult]
    rfl

theorem Pending.Holds.run {j : Junction} {p : Pending A} {f : Formula A} (hp : p.Holds j f)
    {tss : List (List (Token A))} {fs : List (Formula A)} (h : List.Forall₂ IsOperand tss fs)
    (ps : List (Pending A)) :
    ∃ q : Pending A, (joinedTail j tss).foldlM Reader.step ⟨p, ps, true⟩ = some ⟨q, ps, true⟩ ∧
      q.Holds j (.joined j f fs) := by
  induction h generalizing p f with
  | nil => exact ⟨p, rfl, hp⟩
  | @cons ts g tss gs hts _ ih =>
    obtain ⟨q, hq, hqf⟩ := hp.step hts ps
    obtain ⟨r, hr, hrf⟩ := ih hqf
    refine ⟨r, ?_, hrf⟩
    rw [joinedTail, List.flatMap_cons, List.foldlM_append, hq]
    exact hr

/-- **Operands that are joined read as their junction.** -/
theorem Stands.joined (j : Junction) {ts : List (Token A)} {f : Formula A}
    {tss : List (List (Token A))} {fs : List (Formula A)} (h : IsOperand ts f)
    (hs : List.Forall₂ IsOperand tss fs) : Stands (ts ++ joinedTail j tss) (.joined j f fs) := by
  intro ps
  have hfirst : (Pending.start.supply f).Holds j f := ⟨rfl, rfl, fun _ => rfl⟩
  obtain ⟨q, hq, hqf⟩ := hfirst.run hs ps
  refine ⟨q, ?_, hqf.1⟩
  rw [List.foldlM_append, h .start ps]
  exact hq

example : read? [.test 0, .junction .or, .negation, .test 1, .junction .and, .test 2] =
    some (.junction .or (.test 0) (.junction .and (.negation (.test 1)) (.test 2))) := rfl

end Token

end WhereClause
