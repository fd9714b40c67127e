/-
WhereClause/Proofs/Quoting.lean

Whether a quoted name is read back as the identifiers it was made of.  Quoting
doubles the quotes in a part, so that the part comes back whole; but a part that
begins and ends with quotes is taken to be quoted already, and stays as it is
whatever stands between them.

Main results: a quoted part is a delimited identifier exactly if it is no star and,
where it is taken to be quoted, was one before (`Identifier.quote_delimits`), which
is not so of every part (`Identifier.quote_open`).
-/
import WhereClause.Proofs.Delimited

namespace WhereClause

namespace Identifier

open Delimited

variable {q : Char} {part : List Char}

theorem delimit_of_isDelimited (h : isDelimited q part = true) : delimit q part = part :=
  if_pos (.inr h)

theorem delimit_of_not_isDelimited (hstar : part ≠ ['*']) (h : isDelimited q part = false) :
    delimit q part = q :: doubled q part ++ [q] :=
  if_neg (by simp [hstar, h])

/-- Quoting brings nothing but quotes into a part. -/
theorem mem_delimit {c : Char} (h : c ∈ delimit q part) :
    c = q ∨ c ∈ part := by
  rw [delimit] at h
  split at h
  · exact .inr h
  · rw [List.mem_append, List.mem_cons, List.mem_singleton] at h
    rcases h with (h | h) | h
    · exact .inl h
    · obtain ⟨b, hb, hc⟩ := List.mem_flatMap.1 h
      split at hc
      · next hq => exact .inl (by simpa using hc)
      · exact .inr (by rwa [List.mem_singleton.1 hc])
    · exact .inl h

/-- A part that is not taken to be quoted comes back whole. -/
theorem read?_delimit (hstar : part ≠ ['*']) (h : isDelimited q part = false) :
    read? q (delimit q part) = some part :=
  read?_eq_some_iff.2 (delimit_of_not_isDelimited hstar h)

theorem read?_star (q : Char) : read? q ['*'] = none := by
  rw [read?]
  split <;> rfl

theorem delimit_eq_star_iff : delimit q part = ['*'] ↔ part = ['*'] := by
  constructor
  · refine fun h => Decidable.byContradiction fun hstar => ?_
    cases hdelimited : isDelimited q part with
    | true => exact hstar (delimit_of_isDelimited hdelimited ▸ h)
    | false =>
      have hlength := congrArg List.length (delimit_of_not_isDelimited hstar hdelimited ▸ h)
      simp at hlength
  · rintro rfl
    exact if_pos (.inl rfl)

theorem isSome_read?_delimit_iff :
    (read? q (delimit q part)).isSome ↔
      part ≠ ['*'] ∧ (isDelimited q part = true → (read? q part).isSome) := by
  by_cases hstar : part = ['*']
  · subst hstar
    rw [delimit_eq_star_iff.2 rfl, read?_star]
    simp
  · cases h : isDelimited q part with
    | true => simp [delimit_of_isDelimited h, hstar]
    | false => simp [read?_delimit hstar h, hstar]

/-- **A name is quoted part by part.**  A star stays a star, and a part that is not
taken to be quoted is read back from its identifier; all quoted parts but stars are
delimited identifiers if those that are taken to be quoted are. -/
theorem quote_delimits (q : Char) (name : String) :
    ['.'].intercalate (parts name.toList) = name.toList ∧
    (quote q name).toList = ['.'].intercalate ((parts name.toList).map (delimit q)) ∧
    ∀ part ∈ parts name.toList,
      (delimit q part = ['*'] ↔ part = ['*']) ∧
      (part ≠ ['*'] → isDelimited q part = false → read? q (delimit q part) = some part) ∧
      ((read? q (delimit q part)).isSome ↔
        part ≠ ['*'] ∧ (isDelimited q part = true → (read? q part).isSome)) :=
  ⟨List.intercalate_splitOn '.', String.toList_ofList, fun _ _ =>
    ⟨delimit_eq_star_iff, read?_delimit, isSome_read?_delimit_iff⟩⟩

/-- Between two quotes anything may follow an identifier. -/
theorem quote_open :
    let name := "\"a\" OR 1=1 OR \"a\""
    QuoteStyle.double.quote name = name ∧ parts name.toList = [name.toList] ∧
      name.toList ≠ ['*'] ∧ Delimited.read? '"' name.toList = none := by
  decide +kernel

end Identifier

end WhereClause
