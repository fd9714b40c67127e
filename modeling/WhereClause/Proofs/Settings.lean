/-
WhereClause/Proofs/Settings.lean

Options from an environment, as whoever sets the environment up understands them.  Each
setting has values that mean something to it (`Setting.Means`); what the environment gives
for a setting is the meaning of its value, or nothing if there is no value
(`Environment.Gives`).  Options are described by an environment setting by setting, and if
any value means nothing there are no options but the fault of the first such value.

Main results: the options are those that the environment describes
(`Options.ofEnvironment_eq_ok_iff`), the error is that of the first fault
(`Options.ofEnvironment_eq_error_iff`), and no name under a stem that was read is reserved
(`Options.ofEnvironment_allOrNothing`).
-/
import WhereClause.Proofs.Folding
import WhereClause.Proofs.Session

namespace WhereClause

/-! ### Values that mean something -/

/-- A letter of the two alphabets, or the underscore. -/
def IsNameStart (c : Char) : Prop := ('A' ≤ c ∧ c ≤ 'Z') ∨ ('a' ≤ c ∧ c ≤ 'z') ∨ c = '_'

/-- The texts `[A-Za-z_][A-Za-z0-9_]*`. -/
def IsName (s : String) : Prop :=
  ∃ c cs, s.toList = c :: cs ∧ IsNameStart c ∧ ∀ d ∈ cs, IsNameStart d ∨ ('0' ≤ d ∧ d ≤ '9')

def StyleWord.word : StyleWord → String
  | .named => "named"
  | .positional => "positional"

/-- The words for yes and for no. -/
def truthWords : Bool → List String
  | true => ["true", "1", "yes", "on", "enabled", "enable"]
  | false => ["false", "0", "no", "off", "disabled", "disable"]

/-- What the values of a setting stand for. -/
abbrev Setting.Meaning : Setting → Type
  | .placeholder => StyleWord
  | .placeholderStem => String
  | .quoteStyle => QuoteStyle
  | .likeEscape => Char
  | .escapesLikeValues => Bool

/-- What a value means to a setting; words count by their lower case. -/
def Setting.Means (isFinal : Text.SigmaRule) : (s : Setting) → String → s.Meaning → Prop
  | .placeholder, value, style => Text.lowercase isFinal value = style.word
  | .placeholderStem, value, stem => IsName value ∧ stem = value
  | .quoteStyle, value, style => Text.lowercase isFinal value = style.word
  | .likeEscape, value, c => value.toList = [c]
  | .escapesLikeValues, value, b => Text.lowercase isFinal value ∈ truthWords b

/-- The order in which settings are looked at. -/
def Setting.order : List Setting :=
  [.placeholderStem, .placeholder, .quoteStyle, .likeEscape, .escapesLikeValues]

theorem Setting.mem_order (s : Setting) : s ∈ order := by
  cases s <;> decide

/-- The error for a value that means nothing. -/
def Setting.fault (s : Setting) (value : String) : ConfigError :=
  match s with
  | .escapesLikeValues => .notBoolean s.key value
  | _ => .notAllowed s value

namespace Environment

variable (isFinal : Text.SigmaRule) (env : Environment)

/-- What an environment says about a setting: nothing, or what the value there means. -/
def Gives (s : Setting) (a : Option s.Meaning) : Prop :=
  match env.get? s.key with
  | none => a = none
  | some value => ∃ b, a = some b ∧ s.Means isFinal value b

/-- A value is there and means nothing. -/
def Faults (s : Setting) (e : ConfigError) : Prop :=
  ∃ value, env.get? s.key = some value ∧ (∀ a, ¬ s.Means isFinal value a) ∧ e = s.fault value

/-- The fault of the first of some settings that have one. -/
inductive FirstFault : List Setting → ConfigError → Prop
  | here {s : Setting} {ss : List Setting} {e : ConfigError} (h : env.Faults isFinal s e) :
      FirstFault (s :: ss) e
  | later {s : Setting} {ss : List Setting} {e : ConfigError}
      (hs : ∀ e, ¬ env.Faults isFinal s e) (h : FirstFault ss e) : FirstFault (s :: ss) e

/-- Each option is the one that its setting means, or the standard one if that is absent. -/
structure Describes (o : Options) : Prop where
  /-- Unless the style is positional placeholders are named, also if there is only a stem. -/
  placeholder : ∃ stem style, env.Gives isFinal .placeholderStem stem ∧
    env.Gives isFinal .placeholder style ∧
    (style = some .positional → o.placeholder = .positional) ∧
    (style ≠ some .positional → o.placeholder = .named (stem.getD "p"))
  quoteStyle : ∃ style, env.Gives isFinal .quoteStyle style ∧
    o.quoteStyle = style.getD Options.standard.quoteStyle
  likeEscape : env.Gives isFinal .likeEscape o.likeEscape
  escapesLikeValues : ∃ b, env.Gives isFinal .escapesLikeValues b ∧
    o.escapesLikeValues = b.getD Options.standard.escapesLikeValues
  likeEscaping : o.likeEscaping = none

end Environment

/-! ### Reading values -/

theorem isStemStart_iff {c : Char} : isStemStart c = true ↔ IsNameStart c := by
  have halpha : c.isAlpha = (c.isUpper || c.isLower) := rfl
  have hupper : c.isUpper = true ↔ 'A' ≤ c ∧ c ≤ 'Z' := decide_eq_true_iff
  have hlower : c.isLower = true ↔ 'a' ≤ c ∧ c ≤ 'z' := by
    show (decide ('a' ≤ c) && decide (c ≤ 'z')) = true ↔ _
    rw [Bool.and_eq_true, decide_eq_true_iff, decide_eq_true_iff]
  rw [isStemStart, halpha, Bool.or_eq_true, Bool.or_eq_true, hupper, hlower, decide_eq_true_iff,
    IsNameStart, or_assoc]

theorem isStemChar_iff {c : Char} :
    isStemChar c = true ↔ IsNameStart c ∨ ('0' ≤ c ∧ c ≤ '9') := by
  have halphanum : c.isAlphanum = (c.isAlpha || c.isDigit) := rfl
  have hdigit : c.isDigit = true ↔ '0' ≤ c ∧ c ≤ '9' := by
    show (decide ('0' ≤ c) && decide (c ≤ '9')) = true ↔ _
    rw [Bool.and_eq_true, decide_eq_true_iff, decide_eq_true_iff]
  rw [← isStemStart_iff, ← hdigit, isStemChar, isStemStart, halphanum]
  simp only [Bool.or_eq_true]
  exact or_right_comm

theorem isStem_iff {s : String} : isStem s = true ↔ IsName s := by
  rw [isStem, IsName]
  cases hs : s.toList with
  | nil => simp
  | cons c cs =>
    -- A character that may come first may stand anywhere.
    have hfirst : isStemStart c = true → isStemChar c = true := fun h =>
      isStemChar_iff.2 (.inl (isStemStart_iff.1 h))
    simp only [List.all_cons, Bool.and_eq_true, List.all_eq_true, isStemChar_iff, List.cons.injEq]
    constructor
    · rintro ⟨hstart, -, hrest⟩
      exact ⟨c, cs, ⟨rfl, rfl⟩, isStemStart_iff.1 hstart, hrest⟩
    · rintro ⟨d, ds, ⟨rfl, rfl⟩, hstart, hrest⟩
      exact ⟨isStemStart_iff.2 hstart, .inl hstart, hrest⟩

theorem StyleWord.ofWord?_eq_some_iff {s : String} {style : StyleWord} :
    ofWord? s = some style ↔ s = style.word := by
  unfold ofWord?
  split <;> cases style <;> simp_all [word]

theorem QuoteStyle.ofWord?_eq_some_iff {s : String} {style : QuoteStyle} :
    ofWord? s = some style ↔ s = style.word := by
  unfold ofWord?
  split <;> cases style <;> simp_all [word]

theorem truthOfWord?_eq_some_iff {s : String} {b : Bool} :
    truthOfWord? s = some b ↔ s ∈ truthWords b := by
  unfold truthOfWord?
  split <;> cases b <;> simp_all [truthWords]

section Values

variable {isFinal : Text.SigmaRule} {value : String}

theorem means_placeholderStem {stem : String} :
    (if isStem value then some value else none) = some stem ↔
      Setting.Means isFinal .placeholderStem value stem := by
  rw [Setting.Means, ← isStem_iff]
  split
  · next h => simp [h, eq_comm]
  · next h => simp [h]

theorem means_placeholder {style : StyleWord} :
    StyleWord.ofWord? (folded value) = some style ↔
      Setting.Means isFinal .placeholder value style := by
  have hascii : Text.isAscii style.word = true := by
    cases style <;> decide
  rw [StyleWord.ofWord?_eq_some_iff, folded_eq_iff isFinal hascii]
  rfl

theorem means_quoteStyle {style : QuoteStyle} :
    QuoteStyle.ofWord? (folded value) = some style ↔
      Setting.Means isFinal .quoteStyle value style := by
  have hascii : Text.isAscii style.word = true := by
    cases style <;> decide
  rw [QuoteStyle.ofWord?_eq_some_iff, folded_eq_iff isFinal hascii]
  rfl

theorem means_likeEscape {c : Char} :
    (match value.toList with
      | [c] => some c
      | _ => none) = some c ↔ Setting.Means isFinal .likeEscape value c := by
  rw [Setting.Means]
  split <;> simp_all

theorem means_escapesLikeValues {b : Bool} :
    truthOfWord? (folded value) = some b ↔
      Setting.Means isFinal .escapesLikeValues value b := by
  have hascii : (truthWords b).all Text.isAscii = true := by
    cases b <;> decide
  rw [truthOfWord?_eq_some_iff, folded_mem_iff isFinal hascii]
  rfl

end Values

/-! ### Reading settings -/

namespace Environment

variable {isFinal : Text.SigmaRule} {env : Environment} {s : Setting}

/-- A setting that is read by what its values mean is read as the environment gives it. -/
theorem setting_eq_ok_iff {read : String → Option s.Meaning}
    (hread : ∀ {value a}, read value = some a ↔ s.Means isFinal value a) {a : Option s.Meaning} :
    env.setting s read = .ok a ↔ env.Gives isFinal s a := by
  rw [setting, Gives]
  cases env.get? s.key with
  | none => simp [eq_comm]
  | some value =>
    simp only [← hread]
    cases read value with
    | none => simp
    | some b => simp [eq_comm]

theorem setting_eq_error_iff {read : String → Option s.Meaning}
    (hread : ∀ {value a}, read value = some a ↔ s.Means isFinal value a) {e : ConfigError} :
    env.setting s read = .error e ↔ ∃ value, env.get? s.key = some value ∧
      (∀ a, ¬ s.Means isFinal value a) ∧ e = .notAllowed s value := by
  rw [setting]
  cases env.get? s.key with
  | none => simp
  | some value =>
    simp only [← hread]
    cases hvalue : read value with
    | none => simp [hvalue, eq_comm]
    | some b => simp [hvalue]

/-- A switch that is absent is in its standard position. -/
theorem enabled_eq_ok_iff {standard b : Bool} :
    env.enabled Setting.escapesLikeValues.key standard = .ok b ↔
      ∃ a, env.Gives isFinal .escapesLikeValues a ∧ b = a.getD standard := by
  simp only [enabled, Gives]
  cases env.get? Setting.escapesLikeValues.key with
  | none => simp [eq_comm]
  | some value =>
    simp only [← means_escapesLikeValues]
    cases truthOfWord? (folded value) with
    | none => simp
    | some c => simp [eq_comm]

theorem enabled_eq_error_iff {standard : Bool} {e : ConfigError} :
    env.enabled Setting.escapesLikeValues.key standard = .error e ↔
      env.Faults isFinal .escapesLikeValues e := by
  rw [enabled, Faults]
  cases env.get? Setting.escapesLikeValues.key with
  | none => simp
  | some value =>
    simp only [← means_escapesLikeValues]
    cases hvalue : truthOfWord? (folded value) with
    | none => simp [hvalue, eq_comm, Setting.fault]
    | some b => simp [hvalue]

/-! ### One setting after the other -/

/-- Where a first setting is read, faults are its own or those of the settings after it. -/
theorem firstFault_bind_iff {α β : Type} {x : Except ConfigError α} {f : α → Except ConfigError β}
    {ss : List Setting} (hx : ∀ {e}, x = .error e ↔ env.Faults isFinal s e)
    (hf : ∀ a {e}, f a = .error e ↔ env.FirstFault isFinal ss e) {e : ConfigError} :
    x >>= f = .error e ↔ env.FirstFault isFinal (s :: ss) e := by
  cases x with
  -- The setting has a fault, which is the first one, and no other could be found before it.
  | error e' =>
    have hfault : env.Faults isFinal s e' := hx.1 rfl
    constructor
    · rintro ⟨⟩
      exact .here hfault
    · rintro (h | ⟨hnone, -⟩)
      · cases hx.2 h
        rfl
      · exact absurd hfault (hnone e')
  | ok a =>
    -- The setting was read, so it has no fault and the rest decides.
    have hnone : ∀ e, ¬ env.Faults isFinal s e := by
      intro e h
      cases hx.2 h
    constructor
    · intro h
      exact .later hnone ((hf a).1 h)
    · rintro (h | ⟨-, h⟩)
      · exact absurd h (hnone e)
      · exact (hf a).2 h

/-- There is a first fault where there is any. -/
theorem exists_firstFault_iff {ss : List Setting} :
    (∃ e, env.FirstFault isFinal ss e) ↔ ∃ s ∈ ss, ∃ e, env.Faults isFinal s e := by
  induction ss with
  | nil =>
    constructor
    · rintro ⟨e, ⟨⟩⟩
    · rintro ⟨s, ⟨⟩, -⟩
  | cons s ss ih =>
    constructor
    · rintro ⟨e, h | ⟨-, h⟩⟩
      · exact ⟨s, List.mem_cons_self, e, h⟩
      · obtain ⟨t, ht, hfault⟩ := ih.1 ⟨e, h⟩
        exact ⟨t, List.mem_cons_of_mem s ht, hfault⟩
    · rintro ⟨t, ht, hfault⟩
      -- The fault that is given need not be the first: an earlier setting may have one as well.
      by_cases hs : ∃ e, env.Faults isFinal s e
      · obtain ⟨e, h⟩ := hs
        exact ⟨e, .here h⟩
      · rcases List.mem_cons.1 ht with rfl | ht
        · exact absurd hfault hs
        · obtain ⟨e, h⟩ := ih.2 ⟨t, ht, hfault⟩
          exact ⟨e, .later (not_exists.1 hs) h⟩

end Environment

/-- The style that two settings ask for, whatever else they say. -/
theorem PlaceholderStyle.ofSettings_eq_iff {stem : Option String} {word : Option StyleWord}
    {style : PlaceholderStyle} :
    style = ofSettings stem word ↔ (word = some .positional → style = .positional) ∧
      (word ≠ some .positional → style = .named (stem.getD "p")) := by
  rcases word with - | - | -
  · simp [ofSettings]
  · simp [ofSettings]
  · simp [ofSettings]

namespace Options

open Environment

variable {isFinal : Text.SigmaRule} {env : Environment} {o : Options}

/-- **The options of an environment** are those that it describes. -/
theorem ofEnvironment_eq_ok_iff : ofEnvironment env = .ok o ↔ env.Describes isFinal o := by
  constructor
  · intro h
    -- The settings are read one after the other, and each reader says what its value means.
    obtain ⟨stem, hstem, h⟩ := Attempt.bind_eq_ok.1 h
    obtain ⟨word, hword, h⟩ := Attempt.bind_eq_ok.1 h
    obtain ⟨quoteStyle, hquoteStyle, h⟩ := Attempt.bind_eq_ok.1 h
    obtain ⟨likeEscape, hlikeEscape, h⟩ := Attempt.bind_eq_ok.1 h
    obtain ⟨escapes, hescapes, h⟩ := Attempt.bind_eq_ok.1 h
    cases h
    exact {
      placeholder := ⟨stem, word, (setting_eq_ok_iff means_placeholderStem).1 hstem,
        (setting_eq_ok_iff means_placeholder).1 hword, PlaceholderStyle.ofSettings_eq_iff.1 rfl⟩
      quoteStyle := ⟨quoteStyle, (setting_eq_ok_iff means_quoteStyle).1 hquoteStyle, rfl⟩
      likeEscape := (setting_eq_ok_iff means_likeEscape).1 hlikeEscape
      escapesLikeValues := enabled_eq_ok_iff.1 hescapes
      likeEscaping := rfl }
  · rintro ⟨⟨stem, word, hstem, hword, hplaceholder⟩, ⟨quoteStyle, hquoteStyle, hquote⟩,
      hlikeEscape, hescapes, hlikeEscaping⟩
    refine Attempt.bind_eq_ok.2 ⟨stem, (setting_eq_ok_iff means_placeholderStem).2 hstem, ?_⟩
    refine Attempt.bind_eq_ok.2 ⟨word, (setting_eq_ok_iff means_placeholder).2 hword, ?_⟩
    refine Attempt.bind_eq_ok.2
      ⟨quoteStyle, (setting_eq_ok_iff means_quoteStyle).2 hquoteStyle, ?_⟩
    refine Attempt.bind_eq_ok.2
      ⟨o.likeEscape, (setting_eq_ok_iff means_likeEscape).2 hlikeEscape, ?_⟩
    refine Attempt.bind_eq_ok.2 ⟨o.escapesLikeValues, enabled_eq_ok_iff.2 hescapes, ?_⟩
    rw [← PlaceholderStyle.ofSettings_eq_iff.2 hplaceholder, ← hquote]
    show Except.ok { o with likeEscaping := none } = Except.ok o
    rw [← hlikeEscaping]

/-- **The error of an environment** is its first fault. -/
theorem ofEnvironment_eq_error_iff {e : ConfigError} :
    ofEnvironment env = .error e ↔ env.FirstFault isFinal Setting.order e := by
  refine firstFault_bind_iff (setting_eq_error_iff means_placeholderStem) fun stem => ?_
  refine firstFault_bind_iff (setting_eq_error_iff means_placeholder) fun word => ?_
  refine firstFault_bind_iff (setting_eq_error_iff means_quoteStyle) fun quoteStyle => ?_
  refine firstFault_bind_iff (setting_eq_error_iff means_likeEscape) fun likeEscape => ?_
  refine firstFault_bind_iff enabled_eq_error_iff fun escapes => ?_
  -- After the last setting there is nothing left to fail.
  intro e
  constructor
  · rintro ⟨⟩
  · rintro ⟨⟩

/-- Nothing else in an environment is looked at. -/
theorem ofEnvironment_congr {env env' : Environment}
    (h : ∀ s : Setting, env'.get? s.key = env.get? s.key) :
    ofEnvironment env' = ofEnvironment env := by
  simp only [ofEnvironment, Environment.setting, Environment.enabled, h]

end Options

/-! ### Names under a stem -/

/-- A stem that is not all digits makes no reserved name. -/
theorem Sink.isReserved_name {stem : String} (h : ∃ c ∈ stem.toList, c.isDigit = false) (n : Nat) :
    isReserved (PlaceholderStyle.name (.named stem) n) = false := by
  obtain ⟨c, hc, hdigit⟩ := h
  rw [isReserved, List.all_eq_false]
  refine ⟨c, ?_, by simp [hdigit]⟩
  rw [PlaceholderStyle.name, String.toList_append]
  exact List.mem_append_left _ hc

/-- **An environment is read as a whole**: there are options exactly if every value that is
there means something to its setting, and then they are those that the environment
describes; otherwise there is the error of the first value that does not.  Other keys do
not matter, and any name made under a stem that was read can be inserted into any sink. -/
theorem Options.ofEnvironment_allOrNothing (isFinal : Text.SigmaRule) (env : Environment) :
    ((∃ e, ofEnvironment env = .error e) ↔ ∃ (s : Setting) (value : String),
        env.get? s.key = some value ∧ ∀ a, ¬ s.Means isFinal value a) ∧
      (∀ e, ofEnvironment env = .error e ↔ env.FirstFault isFinal Setting.order e) ∧
      (∀ o, ofEnvironment env = .ok o ↔ env.Describes isFinal o) ∧
      (∀ env' : Environment, (∀ s : Setting, env'.get? s.key = env.get? s.key) →
        ofEnvironment env' = ofEnvironment env) ∧
      ∀ o stem, ofEnvironment env = .ok o → o.placeholder = .named stem →
        ∀ (s t : Sink) (v : Value), ∃ answer,
          t.insert (s.nextName o.placeholder) v = .ok answer := by
  refine ⟨?_, fun e => ofEnvironment_eq_error_iff, fun o => ofEnvironment_eq_ok_iff,
    fun env' h => ofEnvironment_congr h, fun o stem ho hstem s t v => ?_⟩
  · have hfirst : (∃ e, ofEnvironment env = .error e) ↔
        ∃ s ∈ Setting.order, ∃ e, env.Faults isFinal s e :=
      (exists_congr fun e => ofEnvironment_eq_error_iff).trans Environment.exists_firstFault_iff
    rw [hfirst]
    constructor
    · rintro ⟨s, -, e, value, hvalue, hmeans, -⟩
      exact ⟨s, value, hvalue, hmeans⟩
    · rintro ⟨s, value, hvalue, hmeans⟩
      exact ⟨s, s.mem_order, _, value, hvalue, hmeans, rfl⟩
  · -- Only numerals are reserved, and a stem has a character that is no digit.
    have hname : Sink.isReserved (s.nextName o.placeholder) = false := by
      rw [Sink.nextName, hstem]
      exact Sink.isReserved_name (exists_not_isDigit_of_ofEnvironment ho hstem) _
    rw [Sink.insert, hname]
    exact ⟨_, rfl⟩

/-- The stem is looked at first, also where placeholders are positional; and words are
understood by their lower case, the Kelvin sign being that of a `k`. -/
theorem Options.ofEnvironment_allOrNothing_kelvin :
    let faulty := Environment.ofPairs [("SQL_CONDITION_PLACEHOLDER", "Positional"),
      ("SQL_CONDITION_QUOTE_STYLE", "brackets"), ("SQL_CONDITION_PLACEHOLDER_PREFIX", "1st")]
    let sound := Environment.ofPairs [("SQL_CONDITION_QUOTE_STYLE", "BAC\u212aTICK"),
      ("SQL_CONDITION_PLACEHOLDER_PREFIX", "_1")]
    let o : Options := { standard with placeholder := .named "_1", quoteStyle := .backtick }
    ofEnvironment faulty = .error (.notAllowed .placeholderStem "1st") ∧
      ofEnvironment sound = .ok o ∧
      ∀ (s t : Sink) (v : Value), ∃ answer, t.insert (s.nextName o.placeholder) v = .ok answer := by
  intro faulty sound o
  have hsound : ofEnvironment sound = .ok o := rfl
  refine ⟨?_, hsound, ?_⟩
  · refine ((ofEnvironment_allOrNothing (fun _ _ => false) faulty).2.1 _).2 (.here ?_)
    refine ⟨"1st", by decide +kernel, ?_, rfl⟩
    rintro stem ⟨hname, -⟩
    rw [← isStem_iff] at hname
    exact absurd hname (by decide)
  · exact (ofEnvironment_allOrNothing (fun _ _ => false) sound).2.2.2.2 o "_1" hsound rfl

end WhereClause
