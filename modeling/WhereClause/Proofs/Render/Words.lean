/-
WhereClause/Proofs/Render/Words.lean

Texts as words.  A text is put together from punctuation and keywords, which are the
same in all texts, from what a specification says itself, such as names, and from the
placeholders of the values that are bound meanwhile.  What is known of the words of a
text is known of all that is made of the text, as long as only such words come in
between.

Main results: rules for each way to make a text (`IsPhrase.append`,
`IsPhrase.intercalate`) and for each way to make a step (`SaysFrom.bind`, `Says.mapM`),
and what an operator of a comparison may look like (`isComparison_iff`).
-/
import WhereClause.Proofs.Render.Runs
import WhereClause.Proofs.Sink.Fresh

namespace WhereClause

/-! ### Words -/

/-- A piece of a text, and what it is there for. -/
inductive Word where
  /-- Punctuation or a keyword. -/
  | fixed (text : String)
  | column (name : String)
  | table (name : String)
  | raw (sql : String)
  /-- The operator of a comparison. -/
  | operator (text : String)
  | placeholder (name : String)
  /-- The character that escapes wildcards, as a literal. -/
  | escape (c : Char)
  /-- A number of values, in queries that are written by hand. -/
  | numeral (n : Nat)

/-- How a word is written. -/
def Word.text (d : Dialect) : Word → String
  | .fixed text => text
  | .column name => d.columnName name
  | .table name => d.tableName name
  | .raw sql => sql
  | .operator text => text
  | .placeholder name => d.options.placeholder.render name
  | .escape c => "'" ++ (if c = '\'' then "''" else String.ofList [c]) ++ "'"
  | .numeral n => n.repr

/-- The punctuation and the keywords. -/
def vocabulary : List String :=
  ["(", ")", ",", " ", "=", "<>", "*", "NULL", "0=1", "AND", "OR", "NOT",
   "IN", "NOT IN", "BETWEEN", "NOT BETWEEN", "LIKE", "NOT LIKE", "ILIKE", "NOT ILIKE",
   "EXISTS", "NOT EXISTS", "IS NULL", "IS NOT NULL", "SELECT", "FROM", "WHERE", "ESCAPE"]

/-- Some symbols without white space in which no comment begins or ends. -/
def IsSymbolRun (text : String) : Prop :=
  text ≠ "" ∧ (∀ c ∈ text.toList, c ∈ comparisonSymbols) ∧
    ∀ mark ∈ ["--", "/*", "*/"], ¬ mark.toList <:+: text.toList

/-- The words that a run from `s` to `t` may write, given those that the specification
has itself. -/
def Word.Allowed (d : Dialect) (own : Word → Prop) (s t : Sink) : Word → Prop
  | .fixed text => text ∈ vocabulary
  | .operator text => own (.operator text) ∧ (text ∈ comparisonKeywords ∨ IsSymbolRun text)
  | .placeholder name => name ∈ t.names ∧ name ∉ s.names
  | .escape c => d.options.likeEscape = some c
  | w => own w

/-- What is allowed stays so with more words of one's own, and on a later sink. -/
theorem Word.Allowed.mono {d : Dialect} {own own' : Word → Prop} {s t t' : Sink}
    (hown : ∀ w, own w → own' w) (ht : t.names ⊆ t'.names) {w : Word}
    (h : w.Allowed d own s t) : w.Allowed d own' s t' := by
  cases w with
  | fixed | escape => exact h
  | operator => exact ⟨hown _ h.1, h.2⟩
  | placeholder => exact ⟨ht h.1, h.2⟩
  | column | table | raw | numeral => exact hown _ h

/-! ### Operators of comparisons -/

/-- Neighbours in a list are those that stand next to each other. -/
theorem mem_zip_tail {α : Type} {a b : α} {cs : List α} :
    (a, b) ∈ cs.zip cs.tail ↔ [a, b] <:+: cs := by
  induction cs with
  | nil => simp
  | cons c cs ih =>
    rw [List.infix_cons_iff, ← ih]
    cases cs with
    | nil => simp
    | cons c' cs => simp

/-- Symbols are symbolic by the test, if no two of them begin or end a comment. -/
theorem isSymbolic_iff {text : String} : isSymbolic text.toList = true ↔ IsSymbolRun text := by
  have hmarks : (∀ p ∈ text.toList.zip text.toList.tail, p ∉ commentMarks) ↔
      ∀ mark ∈ ["--", "/*", "*/"], ¬ mark.toList <:+: text.toList := by
    constructor
    · intro h mark hmark hinfix
      have hpair : ∀ mark ∈ ["--", "/*", "*/"], ∃ p ∈ commentMarks, mark.toList = [p.1, p.2] := by
        decide
      obtain ⟨p, hp, hchars⟩ := hpair mark hmark
      exact h p (mem_zip_tail.2 (hchars ▸ hinfix)) hp
    · intro h p hp hmark
      have hpair : ∀ p ∈ commentMarks, ∃ mark ∈ ["--", "/*", "*/"], mark.toList = [p.1, p.2] := by
        decide
      obtain ⟨mark, hm, hchars⟩ := hpair p hmark
      exact h mark hm (hchars ▸ mem_zip_tail.1 hp)
  simp only [isSymbolic, Bool.and_eq_true, Bool.not_eq_true', List.all_eq_true,
    List.contains_iff_mem, ← Bool.not_eq_true, List.isEmpty_iff, String.toList_eq_nil_iff,
    hmarks, IsSymbolRun, and_assoc, ne_eq]

/-- **The operator of a comparison** is one of the keywords or a run of symbols. -/
theorem isComparison_iff {text : String} :
    isComparison text = true ↔ text ∈ comparisonKeywords ∨ IsSymbolRun text := by
  rw [isComparison, Bool.or_eq_true, isSymbolic_iff, List.contains_iff_mem, or_comm]

/-! ### Texts made of words -/

/-- The text is made of words that a run from `s` to `t` may write. -/
def IsPhrase (d : Dialect) (own : Word → Prop) (s t : Sink) (text : String) : Prop :=
  ∃ ws : List Word, text = String.join (ws.map (·.text d)) ∧ ∀ w ∈ ws, w.Allowed d own s t

namespace IsPhrase

variable {d : Dialect} {own own' : Word → Prop} {s t t' : Sink} {a b : String}

/-- One word is a phrase. -/
theorem word (w : Word) (h : w.Allowed d own s t) : IsPhrase d own s t (w.text d) :=
  ⟨[w], by simp, List.forall_mem_singleton.2 h⟩

/-- Punctuation and keywords may always be written. -/
theorem fixed (texts : List String)
    (h : a = String.join texts ∧ ∀ text ∈ texts, text ∈ vocabulary) :
    IsPhrase d own s t a := by
  refine ⟨texts.map .fixed, ?_, List.forall_mem_map.2 h.2⟩
  rw [h.1, List.map_map]
  exact congrArg String.join (List.map_id texts).symm

/-- So is nothing at all. -/
theorem empty : IsPhrase d own s t "" := fixed [] (by decide)

/-- Phrases one after the other are a phrase. -/
theorem append (ha : IsPhrase d own s t a) (hb : IsPhrase d own s t b) :
    IsPhrase d own s t (a ++ b) := by
  obtain ⟨ws, rfl, hws⟩ := ha
  obtain ⟨ws', rfl, hws'⟩ := hb
  refine ⟨ws ++ ws', ?_, List.forall_mem_append.2 ⟨hws, hws'⟩⟩
  rw [List.map_append, String.join_append]

/-- Two phrases with a space between them, as on the sides of an operator. -/
theorem spaced (ha : IsPhrase d own s t a) (hb : IsPhrase d own s t b) :
    IsPhrase d own s t (a ++ " " ++ b) :=
  (ha.append (fixed [" "] (by decide))).append hb

/-- A phrase stays one with more words of one's own, and on a later sink. -/
theorem mono (hown : ∀ w, own w → own' w) (ht : t.names ⊆ t'.names)
    (ha : IsPhrase d own s t a) : IsPhrase d own' s t' a := by
  obtain ⟨ws, ha, hws⟩ := ha
  exact ⟨ws, ha, fun w hw => (hws w hw).mono hown ht⟩

/-- What is bound later takes no words away. -/
theorem later (ht : t.names ⊆ t'.names) (ha : IsPhrase d own s t a) : IsPhrase d own s t' a :=
  ha.mono (fun _ h => h) ht

/-- A phrase in parentheses is a phrase. -/
theorem parenthesized (ha : IsPhrase d own s t a) : IsPhrase d own s t (parenthesized a) :=
  ((fixed ["("] (by decide)).append ha).append (fixed [")"] (by decide))

/-- Phrases are joined to a phrase. -/
theorem join {as : List String} (has : ∀ a ∈ as, IsPhrase d own s t a) :
    IsPhrase d own s t (String.join as) := by
  induction as with
  | nil => exact empty
  | cons a as ih =>
    obtain ⟨ha, has⟩ := List.forall_mem_cons.1 has
    rw [String.join_cons]
    exact ha.append (ih has)

/-- Phrases with a phrase between each two of them. -/
theorem intercalate (sep : String) (hsep : IsPhrase d own s t sep) {as : List String}
    (has : ∀ a ∈ as, IsPhrase d own s t a) : IsPhrase d own s t (sep.intercalate as) := by
  induction as with
  | nil => exact empty
  | cons a as ih =>
    obtain ⟨ha, has⟩ := List.forall_mem_cons.1 has
    cases as with
    | nil =>
      rw [String.intercalate_singleton]
      exact ha
    | cons a' as =>
      rw [String.intercalate_cons_cons]
      exact (ha.append hsep).append (ih has)

/-- A list of phrases. -/
theorem commaSeparated {as : List String} (has : ∀ a ∈ as, IsPhrase d own s t a) :
    IsPhrase d own s t (", ".intercalate as) :=
  intercalate ", " (fixed [",", " "] (by decide)) has

/-- Whichever of two phrases it is. -/
theorem ifEmpty (ha : IsPhrase d own s t a) (hb : IsPhrase d own s t b) (c : Bool) :
    IsPhrase d own s t (if c then a else b) := by
  cases c with
  | true => exact ha
  | false => exact hb

end IsPhrase

/-! ### Results -/

/-- What is known of a result if something is known of the texts in it. -/
structure Parts (α : Type) where
  holds : (String → Prop) → α → Prop
  mono : ∀ {P P' : String → Prop}, (∀ a, P a → P' a) → ∀ {a : α}, holds P a → holds P' a

namespace Parts

variable {α : Type}

/-- A text says what it is. -/
def text : Parts String := ⟨fun P a => P a, fun h _ => h _⟩

/-- There may be nothing that is said. -/
def option (p : Parts α) : Parts (Option α) :=
  ⟨fun P o => ∀ a ∈ o, p.holds P a, fun h _ ho a ha => p.mono h (ho a ha)⟩

/-- Each of a list says what it is. -/
def each (p : Parts α) : Parts (List α) :=
  ⟨fun P as => ∀ a ∈ as, p.holds P a, fun h _ has a ha => p.mono h (has a ha)⟩

end Parts

/-! ### Steps that write words -/

namespace Render

variable {α β : Type} {d : Dialect} {own own' : Word → Prop} {p : Parts α} {q : Parts β}
  {s m : Sink}

/-- From `m` on, what the step writes is made of words that a run from `s` may write. -/
def SaysFrom (d : Dialect) (own : Word → Prop) (p : Parts α) (s m : Sink) (x : Render α) : Prop :=
  ∀ a t, x m = (.ok a, t) → m.names ⊆ t.names ∧ p.holds (IsPhrase d own s t) a

/-- Wherever it is run, the step writes words that may be written. -/
def Says (d : Dialect) (own : Word → Prop) (p : Parts α) (x : Render α) : Prop :=
  ∀ s m : Sink, s.names ⊆ m.names → SaysFrom d own p s m x

/-- A result that is made of phrases, and nothing more is bound. -/
theorem SaysFrom.pure {a : α} (h : p.holds (IsPhrase d own s m) a) :
    SaysFrom d own p s m (Pure.pure a) := by
  intro b t hrun
  obtain ⟨rfl, rfl⟩ := pure_eq_ok.1 hrun
  exact ⟨List.Subset.refl _, h⟩

/-- The second step starts on a later sink, where the first phrase still stands for what it did.
-/
theorem SaysFrom.bind {x : Render α} {f : α → Render β} (hx : SaysFrom d own p s m x)
    (hf : ∀ a t, m.names ⊆ t.names → p.holds (IsPhrase d own s t) a →
      SaysFrom d own q s t (f a)) : SaysFrom d own q s m (x >>= f) := by
  intro b u hrun
  obtain ⟨a, t, hrunx, hrunf⟩ := bind_eq_ok.1 hrun
  obtain ⟨hmt, ha⟩ := hx a t hrunx
  obtain ⟨htu, hb⟩ := hf a t hmt ha b u hrunf
  exact ⟨List.Subset.trans hmt htu, hb⟩

/-- From whatever sink the second step starts, if it is a later one. -/
theorem Says.bind {x : Render α} {f : α → Render β} (hx : Says d own p x)
    (hf : ∀ s t a, s.names ⊆ t.names → p.holds (IsPhrase d own s t) a →
      SaysFrom d own q s t (f a)) : Says d own q (x >>= f) :=
  fun s m hsm => (hx s m hsm).bind fun a t hmt ha => hf s t a (List.Subset.trans hsm hmt) ha

/-- What is made of a phrase on the sink that it was written on. -/
theorem Says.map {x : Render α} {f : α → β} (hx : Says d own p x)
    (hf : ∀ s t a, p.holds (IsPhrase d own s t) a → q.holds (IsPhrase d own s t) (f a)) :
    Says d own q (x >>= fun a => Pure.pure (f a)) :=
  hx.bind fun s t a _ ha => .pure (hf s t a ha)

/-- A text that is a phrase on every sink. -/
theorem Says.const {a : α} (h : ∀ s t, p.holds (IsPhrase d own s t) a) :
    Says d own p (Pure.pure a) :=
  fun s m _ => .pure (h s m)

/-- Where nothing is written nothing is said. -/
theorem Says.fail (e : Error) : Says d own p (Render.fail e) :=
  fun _ _ _ _ _ hrun => absurd (congrArg Prod.fst hrun) (by simp [Render.fail])

/-- A place is put before errors only. -/
theorem Says.within (place : Place) {x : Render α} (hx : Says d own p x) :
    Says d own p (Render.within place x) :=
  fun s m hsm a t hrun => hx s m hsm a t (within_eq_ok.1 hrun)

/-- More words may be allowed. -/
theorem Says.mono (hown : ∀ w, own w → own' w) {x : Render α} (hx : Says d own p x) :
    Says d own' p x := by
  intro s m hsm a t hrun
  obtain ⟨hmt, ha⟩ := hx s m hsm a t hrun
  exact ⟨hmt, p.mono (fun _ h => h.mono hown (List.Subset.refl _)) ha⟩

/-- A value is bound under a name that no sink had before. -/
theorem Says.value (v : Value) : Says d own .text (d.bind v) := by
  intro s m hsm a t hrun
  obtain ⟨rfl, rfl⟩ : d.options.placeholder.render (m.nextName d.options.placeholder) = a ∧
      m.append (m.nextName d.options.placeholder) v = t := by
    simpa [Dialect.bind, Sink.bind_eq] using hrun
  rw [Sink.names_append]
  refine ⟨List.subset_append_left _ _, IsPhrase.word (.placeholder _) ⟨?_, fun hold => ?_⟩⟩
  · rw [Sink.names_append]
    exact List.mem_append_right _ (List.mem_singleton_self _)
  · exact Sink.nextName_notMem _ m (hsm hold)

/-- A list of steps writes words if each of them does. -/
theorem Says.mapM {f : β → Render α} {bs : List β} (h : ∀ b ∈ bs, Says d own p (f b)) :
    Says d own p.each (bs.mapM f) := by
  induction bs with
  | nil => exact .const fun s t => List.forall_mem_nil _
  | cons b bs ih =>
    obtain ⟨hb, hbs⟩ := List.forall_mem_cons.1 h
    rw [List.mapM_cons]
    apply hb.bind
    intro s t a hst ha
    apply (ih hbs s t hst).bind
    intro as u htu has
    apply SaysFrom.pure
    -- The words of the first step were written before the others bound their values.
    exact List.forall_mem_cons.2 ⟨p.mono (fun _ h => h.later htu) ha, has⟩

end Render

end WhereClause
