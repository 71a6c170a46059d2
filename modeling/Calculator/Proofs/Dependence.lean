import Calculator.Proofs.Session

/-! What an answer depends on. A text that does not mention the last answer is answered without
it, and a text that neither asks for the angle mode nor works with angles is answered alike in
both modes.
-/

namespace Calculator

/-- Whether a token asks for the angle mode, switches it, or has a value that depends on it. -/
def Token.readsMode : Token → Bool
  | function (.nullary _) | function (.unary (.angle _)) | function (.unary (.inverse _)) => true
  | _ => false

namespace Postfix

variable {same : State → State → Prop}

/-- A token finds no difference between states that are taken for the same. -/
structure Blind (same : State → State → Prop) (t : Token) : Prop where
  constant : ∀ c, t = .constant c → ∀ s s', same s s' → c.value? s = c.value? s'
  nullary
    : ∀ f, t = .function (.nullary f) → ∀ s s', same s s'
      → (f.apply s).1 = (f.apply s').1 ∧ same (f.apply s).2 (f.apply s').2
  unary
    : ∀ f, t = .function (.unary f) → ∀ s s', same s s'
      → ∀ x, f.apply s.mode x = f.apply s'.mode x

/-- A function of no angle has the same values in both modes. -/
theorem apply_eq_of_not_readsMode {f : UnaryFunction}
    (blind : Token.readsMode (.function (.unary f)) = false) (mode mode' : AngleMode) (x : Float)
    : f.apply mode x = f.apply mode' x := by
  cases f with
  | angle f | inverse f => cases blind
  | _ => rfl

/-- States of the same mode differ for the last answer only. -/
theorem blind_of_ne_ans {t : Token} (other : t ≠ .constant .ans)
    : Blind (fun s s' => s.mode = s'.mode) t where
  constant := by
    rintro c rfl s s' -
    cases c with
    | pi | e => rfl
    | ans => exact absurd rfl other
  nullary := by
    intro f _ s s' mode
    cases f with
    | toggle => simp [ModeFunction.apply, State.toggleMode, mode]
    | current => exact ⟨by simp [ModeFunction.apply, mode], mode⟩
  unary := by
    intro f _ s s' mode x
    rw [mode]

/-- States with the same answer differ for the tokens only that read the mode. -/
theorem blind_of_not_readsMode {t : Token} (blind : t.readsMode = false)
    : Blind (fun s s' => s.ans = s'.ans) t where
  constant := by
    rintro c - s s' last
    cases c with
    | pi | e => rfl
    | ans => exact last
  nullary := by
    rintro f rfl
    cases blind
  unary := by
    rintro f rfl s s' - x
    exact apply_eq_of_not_readsMode blind s.mode s'.mode x

--------------------------------------------------------------------------------
-- Two machines
--------------------------------------------------------------------------------

/-- Machines with the same values whose states are taken for the same. -/
structure Machine.Agrees (same : State → State → Prop) (m m' : Machine) : Prop where
  values : m.values = m'.values
  state : same m.state m'.state

namespace Machine.Agrees

variable {s s' : State}

/-- A value that both machines find takes the place of the operands of both. -/
theorem replace (states : same s s') (values : List Float) (result : Except CalcError Float)
    : Alike (Machine.Agrees same)
      (result >>= fun x => .ok { values := x :: values, state := s })
      (result >>= fun x => .ok { values := x :: values, state := s' }) :=
  (Alike.of_eq (fun _ => rfl) result).bind fun _ _ found => .ok ⟨by rw [found], states⟩

/-- A call of a function that is blind to the difference treats both machines alike. Witness: one
case for each number of arguments.
-/
theorem call (states : same s s') (values : List Float) {f : Function}
    (blind : Blind same (.function f))
    : Alike (Machine.Agrees same) (Machine.call ⟨values, s⟩ f) (Machine.call ⟨values, s'⟩ f) := by
  cases f with
  | nullary f =>
      obtain ⟨value, behind⟩ := blind.nullary f rfl s s' states
      exact .ok ⟨congrArg (· :: values) value, behind⟩
  | unary f =>
      cases values with
      | nil => exact .error _
      | cons x values =>
          simp only [Machine.call, blind.unary f rfl s s' states x]
          exact replace states values _
  | power =>
      rcases values with - | ⟨b, - | ⟨a, values⟩⟩
      · exact .error _
      · exact .error _
      · exact replace states values _

/-- A token that finds no difference between two machines leaves none. -/
theorem step {m m' : Machine} (agrees : m.Agrees same m') {t : Token} (blind : Blind same t)
    : Alike (Machine.Agrees same) (m.step t) (m'.step t) := by
  obtain ⟨values, s⟩ := m
  obtain ⟨values', s'⟩ := m'
  obtain ⟨rfl, states⟩ := agrees
  cases t with
  | number x => exact .ok ⟨rfl, states⟩
  | constant c =>
      simp only [Machine.step, blind.constant c rfl s s' states]
      cases c.value? s' with
      | none => exact .error _
      | some x => exact .ok ⟨rfl, states⟩
  | operator op =>
      rcases values with - | ⟨b, - | ⟨a, values⟩⟩
      · exact .error _
      · exact .error _
      · exact replace states values _
  | function f => exact call states values blind
  | openBracket | closeBracket | separator => exact .error _

end Machine.Agrees

/-- Tokens that find no difference between two states give the same answer in both. -/
theorem evaluate_alike {tokens : List Token} {s s' : State} (blind : ∀ t ∈ tokens, Blind same t)
    (states : same s s')
    : Alike (fun p q => p.1 = q.1) (evaluate tokens s) (evaluate tokens s') := by
  have runs : Alike (Machine.Agrees same) (tokens.foldlM Machine.step { state := s })
      (tokens.foldlM Machine.step { state := s' }) :=
    Alike.foldlM (fun t member _ _ agrees => agrees.step (blind t member)) ⟨rfl, states⟩
  refine runs.bind fun m m' agrees => ?_
  have answers : m.answer = m'.answer := by rw [Machine.answer, agrees.values, ← Machine.answer]
  rw [answers]
  exact (Alike.of_eq (fun _ => rfl) m'.answer).bind fun _ _ found => .ok found

/-- The conversion asks whether there is a last answer, and only where it is mentioned. -/
theorem ofTokens_eq_of_ans {tokens : List Token} {s s' : State}
    (last : .constant .ans ∈ tokens → s.ans = s'.ans)
    : ofTokens tokens s = ofTokens tokens s' := by
  have step (t : Token) (member : t ∈ tokens) (c d : Converter) (converters : c = d)
      : Alike (· = ·) (c.pushIn s t) (d.pushIn s' t) := by
    have same : c.pushIn s t = d.pushIn s' t := by
      by_cases mentioned : t = .constant .ans
      · rw [Converter.pushIn, Converter.pushIn, last (mentioned ▸ member), converters]
      · simp [Converter.pushIn, mentioned, converters]
    exact same ▸ Alike.of_eq (fun _ => rfl) _
  rw [ofTokens, ofTokens, (Alike.foldlM step rfl).eq]

end Postfix

--------------------------------------------------------------------------------
-- Texts
--------------------------------------------------------------------------------

/-- Whether a text holds the word `name`, in any case of letters. -/
def Mentions (text name : String) : Prop :=
  .word name.toList ∈ Lexeme.scan (Text.lowerCase text.toList)

instance (text name : String) : Decidable (Mentions text name) :=
  inferInstanceAs (Decidable (_ ∈ _))

/-- The words of the functions that read or switch the angle mode. -/
def modeWords : List String :=
  ["tog", "mode", "sin", "cos", "tan", "asin", "acos", "atan", "sinh", "cosh", "tanh", "asinh",
    "acosh", "atanh"]

/-- Each function that reads the angle mode is named by one of the words. -/
theorem name_mem_modeWords {f : Function} (reads : Token.readsMode (.function f) = true)
    : f.name ∈ modeWords := by
  cases f with
  | nullary f => cases f <;> decide
  | power => cases reads
  | unary f =>
      cases f with
      | angle f | inverse f => cases f <;> decide
      | _ => cases reads

/-- A symbol that a text does not mention is none of its tokens. -/
theorem not_mem_of_not_mentions {text : String} {tokens : List Token} (symbol : Symbol)
    (long : 1 < symbol.name.length) (unmentioned : ¬Mentions text symbol.name)
    (lexed : lex text = .ok tokens)
    : .ofSymbol symbol ∉ tokens := by
  have others : ∀ t ∈ tokens, t ≠ .ofSymbol symbol := by
    refine forall_mem_of_mapM (fun l found t read => ?_) lexed
    rintro rfl
    obtain rfl := (Lexeme.token_eq_ofSymbol_iff symbol long).mp read
    exact unmentioned found
  exact fun member => others _ member rfl

theorem Outcome.result_ofRun_eq {ran ran' : Except CalcError (Float × State)} {s s' : State}
    (alike : Alike (fun p q => p.1 = q.1) ran ran')
    : (ofRun s ran).result = (ofRun s' ran').result := by
  cases alike with
  | ok both => exact congrArg Except.ok both
  | error e => rfl

/-- Two states that the tokens of a text find no difference between answer it alike. -/
theorem result_eq_of_blind (same : State → State → Prop) {text : String} {s s' : State}
    (states : same s s') {selects : Token → Bool} (lasting : Infix.Lasting selects)
    (written : ∀ tokens, lex text = .ok tokens → ∀ t ∈ tokens, selects t = false)
    (last : ∀ t, selects t = false → t = .constant .ans → s.ans = s'.ans)
    (blind : ∀ t, selects t = false → Postfix.Blind same t)
    : (solve text s).result = (solve text s').result := by
  cases tokenized : tokenize text with
  | error e => simp [solve, tokenized, Outcome.ofRun]
  | ok explicit =>
      obtain ⟨tokens, lexed, rfl⟩ : ∃ tokens, lex text = .ok tokens
          ∧ Infix.explicit tokens = explicit := by
        obtain ⟨tokens, lexed, same⟩ := bind_eq_ok_iff.mp tokenized
        exact ⟨tokens, lexed, Except.ok.inj same⟩
      have free := lasting.not_selected_explicit (written tokens lexed)
      have orders
          : Postfix.ofTokens (Infix.explicit tokens) s
            = Postfix.ofTokens (Infix.explicit tokens) s' :=
        Postfix.ofTokens_eq_of_ans fun member => last _ (free _ member) rfl
      simp only [solve, tokenized, ok_bind, run, orders]
      cases converted : Postfix.ofTokens (Infix.explicit tokens) s' with
      | error e => rfl
      | ok output =>
          have bare (t : Token) (member : t ∈ output) : Postfix.Blind same t :=
            blind t (free t (Postfix.mem_of_ofTokens converted member))
          simp only [ok_bind]
          exact Outcome.result_ofRun_eq (Postfix.evaluate_alike bare states)

theorem lasting_ans
    : Infix.Lasting fun t => t == .constant .ans :=
  ⟨fun _ => rfl, rfl, rfl, rfl⟩

theorem lasting_readsMode
    : Infix.Lasting Token.readsMode :=
  ⟨fun _ => rfl, rfl, rfl, rfl⟩

/-- A text that does not mention the last answer does not depend on it. -/
theorem result_eq_of_not_mentions_ans {text : String} {s s' : State}
    (unmentioned : ¬Mentions text Constant.ans.name) (mode : s.mode = s'.mode)
    : (solve text s).result = (solve text s').result := by
  refine result_eq_of_blind (fun s s' => s.mode = s'.mode) mode lasting_ans ?_ ?_ ?_
  · intro tokens lexed t member
    have missing := not_mem_of_not_mentions (.constant .ans) (by decide) unmentioned lexed
    have other : t ≠ .constant .ans := by
      rintro rfl
      exact missing member
    simpa using other
  · rintro t other rfl
    cases other
  · intro t other
    exact Postfix.blind_of_ne_ans (by simpa using other)

/-- A text that mentions no word of the angle mode does not depend on it. -/
theorem result_eq_of_not_mentions_mode {text : String} {s s' : State}
    (unmentioned : ∀ word ∈ modeWords, ¬Mentions text word) (last : s.ans = s'.ans)
    : (solve text s).result = (solve text s').result := by
  refine result_eq_of_blind (fun s s' => s.ans = s'.ans) last lasting_readsMode ?_
    (fun _ _ _ => last) fun t => Postfix.blind_of_not_readsMode
  intro tokens lexed t member
  by_contra reads
  rw [Bool.not_eq_false] at reads
  obtain ⟨f, rfl⟩ : ∃ f, t = .function f := by
    cases t with
    | function f => exact ⟨f, rfl⟩
    | _ => cases reads
  have missing := unmentioned f.name (name_mem_modeWords reads)
  exact not_mem_of_not_mentions (.function f) f.one_lt_length_name missing lexed member

/-- Only the word of the toggle switches the mode. -/
theorem mode_behind_of_not_mentions {text : String} (unmentioned : ¬Mentions text "tog")
    (s : State)
    : (solve text s).state.mode = s.mode := by
  have none : toggles text = 0 := List.count_eq_zero_of_not_mem unmentioned
  rw [solve_state, none]
  cases (solve text s).result <;> rfl

/-- An answer depends on the part of the state only that its text mentions: on the last answer if
it holds the word of it, and on the angle mode if it holds the name of a function that reads or
switches the mode. So does the state behind the text.
-/
theorem answers_depend_on_mentions (text : String) (s s' : State)
    : (¬Mentions text "ans" → s.mode = s'.mode
        → (solve text s).result = (solve text s').result
          ∧ (solve text s).state.mode = (solve text s').state.mode
          ∧ ∀ x, (solve text s).result = .ok x → (solve text s).state = (solve text s').state)
      ∧ ((∀ word ∈ modeWords, ¬Mentions text word) → s.ans = s'.ans
        → (solve text s).result = (solve text s').result
          ∧ (solve text s).state.mode = s.mode
          ∧ (solve text s').state.mode = s'.mode) := by
  constructor
  · intro unmentioned mode
    have results := result_eq_of_not_mentions_ans unmentioned mode
    refine ⟨results, ?_, fun x answered => ?_⟩
    · rw [solve_state, solve_state, results]
      cases (solve text s').result with
      | ok x => simp [State.behind, mode]
      | error e => exact mode
    · rw [solve_state, solve_state, ← results, answered]
      simp [State.behind, mode]
  · intro unmentioned last
    have fixed := mode_behind_of_not_mentions (unmentioned "tog" (by decide))
    exact ⟨result_eq_of_not_mentions_mode unmentioned last, fixed s, fixed s'⟩

/-- Witness: a text that switches and reads the mode, with different last answers, and one that
asks for the last answer, in different modes.
-/
theorem answers_depend_on_mentions_toggled
    : let written := "TOG/8 - mode"
      let asked := "ans/8 + 2"
      let s : State := { ans := some 7 }
      let degrees : State := { mode := .degree, ans := some 7 }
      ¬Mentions written "ans" ∧ (∀ word ∈ modeWords, ¬Mentions asked word)
        ∧ (solve written {}).result = .ok (-0.875)
        ∧ (solve written {}).result = (solve written s).result
        ∧ (solve written {}).state = (solve written s).state
        ∧ (solve asked s).result = .ok 2.875
        ∧ (solve asked s).result = (solve asked degrees).result := by
  intro written asked s degrees
  have unmentioned : ¬Mentions written "ans" := by decide +kernel
  have modeless : ∀ word ∈ modeWords, ¬Mentions asked word := by decide +kernel
  have switched : (solve written {}).result = .ok (-0.875) := by decide +kernel
  have answered : (solve asked s).result = .ok 2.875 := by decide +kernel
  obtain ⟨results, _, states⟩ := (answers_depend_on_mentions written {} s).1 unmentioned rfl
  obtain ⟨same, _, _⟩ := (answers_depend_on_mentions asked s degrees).2 modeless rfl
  exact ⟨unmentioned, modeless, switched, results, states _ switched, answered, same⟩

end Calculator
