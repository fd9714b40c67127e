/-
WhereClause/Proofs/Placeholder/Trace.lean

What a run leaves in the sink and in the text.  The placeholders of the text, each
taken where it comes first, are the names of the entries that the run added, in
the same order; where one comes more than once there is a reason, which is left
open here.

Main results: runs one after the other (`Traces.append`), and a text that is
written again (`Traces.again`).
-/
import WhereClause.Proofs.Sink.Fresh

namespace WhereClause

/-- From `s` to `t` the placeholders `names` were written.  A name that is repeated
was bound in some part of the run that is a reason for it. -/
structure Traces (reason : Sink → Sink → String → Prop) (s : Sink) (names : List String)
    (t : Sink) : Prop where
  added : ∃ new, t.entries = s.entries ++ new ∧ names.eraseDups = new.map (·.1)
  fresh : ∀ n ∈ names, n ∉ s.names
  repeated : ∀ n, 1 < names.count n →
    ∃ a b, s.entries <+: a.entries ∧ b.entries <+: t.entries ∧ reason a b n

theorem eraseDups_append_of_disjoint {as bs : List String} (h : ∀ b ∈ bs, b ∉ as) :
    (as ++ bs).eraseDups = as.eraseDups ++ bs.eraseDups := by
  rw [List.eraseDups_append, List.removeAll, List.filter_eq_self.2]
  intro b hb
  simpa using h b hb

theorem eraseDups_append_of_subset {as bs : List String} (h : ∀ b ∈ bs, b ∈ as) :
    (as ++ bs).eraseDups = as.eraseDups := by
  have hnone : bs.removeAll as = [] := by
    rw [List.removeAll, List.filter_eq_nil_iff]
    intro b hb
    simpa using h b hb
  rw [List.eraseDups_append, hnone, List.eraseDups_nil, List.append_nil]

namespace Traces

variable {reason : Sink → Sink → String → Prop} {s t u : Sink} {names more : List String}

theorem prefix_entries (h : Traces reason s names t) : s.entries <+: t.entries := by
  obtain ⟨new, hnew, -⟩ := h.added
  rw [hnew]
  exact List.prefix_append _ _

theorem names_eq (h : Traces reason s names t) : t.names = s.names ++ names.eraseDups := by
  obtain ⟨new, hnew, hnames⟩ := h.added
  rw [Sink.names, hnew, List.map_append, hnames]
  rfl

theorem mem_names (h : Traces reason s names t) {n : String} (hn : n ∈ names) : n ∈ t.names := by
  rw [h.names_eq, List.mem_append, List.mem_eraseDups]
  exact .inr hn

theorem nil (s : Sink) : Traces reason s [] s where
  added := ⟨[], by simp, rfl⟩
  fresh := by simp
  repeated := by simp

theorem bind (style : PlaceholderStyle) (v : Value) (s : Sink) :
    Traces reason s [s.nextName style] (s.bind style v).2 where
  added := ⟨[(s.nextName style, v)], rfl, rfl⟩
  fresh := by
    intro n hn
    rw [List.mem_singleton] at hn
    subst hn
    exact s.nextName_notMem style
  repeated := by
    intro n hn
    have := List.count_le_length (a := n) (l := [s.nextName style])
    exact absurd (Nat.lt_of_lt_of_le hn this) (by simp)

/-- What the second run writes is new to the first. -/
theorem append (h : Traces reason s names t) (h' : Traces reason t more u) :
    Traces reason s (names ++ more) u where
  added := by
    obtain ⟨new, hnew, hnames⟩ := h.added
    obtain ⟨new', hnew', hmore⟩ := h'.added
    refine ⟨new ++ new', by rw [hnew', hnew, List.append_assoc], ?_⟩
    rw [eraseDups_append_of_disjoint fun n hn hmem => h'.fresh n hn (h.mem_names hmem), hnames,
      hmore, List.map_append]
  fresh := by
    intro n hn hold
    rcases List.mem_append.1 hn with hn | hn
    · exact h.fresh n hn hold
    · refine h'.fresh n hn ?_
      rw [h.names_eq]
      exact List.mem_append_left _ hold
  repeated := by
    intro n hn
    rw [List.count_append] at hn
    -- A name is repeated within one of the runs, as they have none in common.
    by_cases hmore : n ∈ more
    · have hnames : names.count n = 0 :=
        List.count_eq_zero.2 fun hmem => h'.fresh n hmore (h.mem_names hmem)
      obtain ⟨a, b, ha, hb, hab⟩ := h'.repeated n (by omega)
      exact ⟨a, b, h.prefix_entries.trans ha, hb, hab⟩
    · rw [List.count_eq_zero.2 hmore] at hn
      obtain ⟨a, b, ha, hb, hab⟩ := h.repeated n hn
      exact ⟨a, b, ha, hb.trans h'.prefix_entries, hab⟩

/-- A text that was written before is written again, for a reason that holds of all
its placeholders. -/
theorem again (h : Traces reason s names t) (hsub : ∀ n ∈ more, n ∈ names)
    (hreason : ∀ n ∈ more, ∃ a b, s.entries <+: a.entries ∧ b.entries <+: t.entries ∧
      reason a b n) : Traces reason s (names ++ more) t where
  added := by
    rw [eraseDups_append_of_subset hsub]
    exact h.added
  fresh := by
    intro n hn
    rcases List.mem_append.1 hn with hn | hn
    · exact h.fresh n hn
    · exact h.fresh n (hsub n hn)
  repeated := by
    intro n hn
    -- What is not written again is repeated only if it was before.
    by_cases hmore : n ∈ more
    · exact hreason n hmore
    · rw [List.count_append, List.count_eq_zero.2 hmore] at hn
      exact h.repeated n hn

end Traces

end WhereClause
