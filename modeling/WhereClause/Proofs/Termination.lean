/-
WhereClause/Proofs/Termination.lean

Compiling comes to an end.  A specification is read, its node is written, and to write it
the specifications that stand in the node are compiled in turn; each of these calls is one
level further down.  `Spec.compileWithin` makes the same calls as long as no more than a
given number of them are under way, and does something else in place of any further one.
It recurs on that number alone.

Main result: parsing the operands of an operator leaves less to do than there was, and so
does making a hash of a mapping; and a specification of some depth is compiled with no more
than that many calls under way, whatever the tokens under which the forms of the library
are found (`Spec.compile_descends`).
-/
import WhereClause.Compiler
import WhereClause.Proofs.Nesting

namespace WhereClause

theorem Reading.map_congr {S T : Type} {x : Reading S} {f g : S → T}
    (h : ∀ t ∈ x.nested, f t = g t) : x.map f = x.map g := by
  have hfun : (fun (t : S) (_ : t ∈ x.nested) => f t) = fun t _ => g t := by
    funext t ht
    exact h t ht
  rw [map, map, hfun]

namespace Spec

/-! ### Calls under way -/

/-- What `f` makes of one level, given what it makes of the next, down to `n` levels; what
stands below them counts as `overflow`. -/
def foldWithin {α : Type} (r : Registry) (f : Reading α → α) (overflow : α) : Nat → Spec → α
  | 0, _ => overflow
  | n + 1, s => f ((s.read r).map (foldWithin r f overflow n))

/-- A specification as SQL, with at most `n` calls under way at a time. -/
def compileWithin (c : Compiler) (overflow : Render String) (n : Nat) (s : Spec) :
    Render String :=
  s.foldWithin c.registry (Reading.render c.dialect) overflow n

/-- As many levels as a specification is deep are enough. -/
theorem foldWithin_eq_fold {α : Type} {table : List (String × Builtin)} {f : Reading α → α}
    {overflow : α} {n : Nat} {s : Spec} (h : s.depth ≤ n) :
    s.foldWithin (.ofBuiltins table) f overflow n = s.fold (.ofBuiltins table) f := by
  induction n generalizing s with
  | zero =>
    have hpos := s.depth_pos
    omega
  | succ n ih =>
    have hnext : (s.read (.ofBuiltins table)).map (foldWithin (.ofBuiltins table) f overflow n) =
        (s.read (.ofBuiltins table)).map (fold (.ofBuiltins table) f) := by
      apply Reading.map_congr
      intro t ht
      have hlt := depth_lt_of_mem_read ht
      exact ih (by omega)
    rw [foldWithin, hnext, fold_eq]

/-! ### Descent -/

/-- **Compiling descends.**  Under any tokens, the conditions that stand in what is parsed,
those in sub-queries included, have together fewer constructors than the list that begins
with the operator, and those in a hash fewer than the mapping that it is made of.  So
compiling comes to an end: it needs no more calls under way than the specification has
levels, since what any further call would do is never seen. -/
theorem compile_descends (table : List (String × Builtin)) :
    (∀ token operands c, (Registry.ofBuiltins table).parse token operands = .ok c →
        totalSize c.nested < (operator token operands).size) ∧
      (∀ entries c, Condition.ofMap entries = .ok c →
        totalSize c.nested < (map entries).size) ∧
      ∀ (d : Dialect) (s : Spec) (n : Nat), s.depth ≤ n → ∀ overflow : Render String,
        s.compileWithin ⟨d, .ofBuiltins table⟩ overflow n =
          s.compile ⟨d, .ofBuiltins table⟩ := by
  refine ⟨?_, ?_, ?_⟩
  · intro token operands c h
    -- What is parsed is what reading the whole list gives.
    have hread : (operator token operands).read (.ofBuiltins table) = .node c :=
      Reading.ofExcept_eq_node.2 h
    have hlt := totalSize_read_lt table (operator token operands)
    rw [hread] at hlt
    exact hlt
  · intro entries c h
    rw [Condition.nested_of_ofMap h]
    exact totalSize_inside_lt (map entries)
  · intro d s n h overflow
    exact foldWithin_eq_fold h

/-- A negation under a token of its own, of a hash whose list holds a sub-query. -/
theorem compile_descends_foreign :
    let table : List (String × Builtin) := [("NEVER", .negation)]
    let filter : Spec := .map [("b", .null)]
    let inner : Spec := .map [("a", .list [.subquery (.select "t" ["a"] (some filter))])]
    let hash : Condition Spec :=
      .hash [("a", .list [.scalar (.subquery (.select "t" ["a"] (some filter)))])]
    (Registry.ofBuiltins table).parse "never" [inner] = .ok (.negation inner) ∧
      totalSize [inner] < (operator "never" [inner]).size ∧
      Condition.ofMap [("a", .list [.subquery (.select "t" ["a"] (some filter))])] = .ok hash ∧
      totalSize [filter] < inner.size ∧
      (operator "never" [inner]).depth = 6 ∧
      ∀ (d : Dialect) (overflow : Render String),
        (operator "never" [inner]).compileWithin ⟨d, .ofBuiltins table⟩ overflow 6 =
          (operator "never" [inner]).compile ⟨d, .ofBuiltins table⟩ := by
  intro table filter inner hash
  have hparse : (Registry.ofBuiltins table).parse "never" [inner] = .ok (.negation inner) := by
    have hnormal : Operator.normalize "never" = "NEVER" := by decide +kernel
    rw [Registry.parse_eq, hnormal]
    rfl
  have hmap : Condition.ofMap [("a", .list [.subquery (.select "t" ["a"] (some filter))])] =
      .ok hash := rfl
  have hdepth : (operator "never" [inner]).depth = 6 := by
    simp [depth_eq, operator, inner, filter, parts, text, Spec.value, subquery, null,
      Scalar.nested, Subquery.nested]
  obtain ⟨hoperator, hentries, hcalls⟩ := compile_descends table
  exact ⟨hparse, hoperator _ _ _ hparse, hmap, hentries _ _ hmap, hdepth,
    fun d overflow => hcalls d _ 6 (Nat.le_of_eq hdepth) overflow⟩

end Spec

end WhereClause
