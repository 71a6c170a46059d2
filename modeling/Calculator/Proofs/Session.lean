import Calculator.Proofs.Infix.Kept
import Calculator.Proofs.Lexeme.Names
import Calculator.Proofs.Postfix.Evaluation
import Calculator.Proofs.Postfix.Permutation

/-! What one text after the other does to the state. A text without an answer leaves no trace,
so a session is the same without it.
-/

namespace Calculator

/-- How often a text holds the word of the toggle. -/
def toggles (text : String) : Nat :=
  (Lexeme.scan (Text.lowerCase text.toList)).count (.word "tog".toList)

/-- What becomes of a state behind an expression that calls the toggle `toggles` times. An answer is
remembered, and the mode is another one if and only if the number of calls is odd. A failure leaves
everything as it was.
-/
def State.Becomes (before : State) (toggles : Nat) (result : Except CalcError Float)
    (after : State)
    : Prop :=
  match result with
  | .ok x => after.ans = some x ∧ (after.mode ≠ before.mode ↔ Odd toggles)
  | .error _ => after = before

/-- The state behind an expression is what becomes of the one before it, since there are two modes
and the toggle switches between them.
-/
theorem State.becomes_behind (s : State) (toggles : Nat) (result : Except CalcError Float)
    : s.Becomes toggles result (s.behind toggles result) := by
  have switched : s.mode.toggled ≠ s.mode := by
    cases s.mode <;> simp [AngleMode.toggled]
  cases result with
  | error e => rfl
  | ok x =>
      refine ⟨rfl, ?_⟩
      by_cases odd : Odd toggles
      · simp [behind, odd, switched]
      · simp [behind, odd]

/-- The passes over the tokens keep the toggles. -/
theorem count_toggle_explicit (tokens : List Token)
    : (Infix.explicit tokens).count .toggle = tokens.count .toggle := by
  have called (ts : List Token) : (ts.filter Token.isFunction).count .toggle = ts.count .toggle :=
    List.count_filter rfl
  rw [← called, Infix.lasting_isFunction.filter_explicit, called]

/-- So does the conversion. -/
theorem count_toggle_ofTokens {tokens output : List Token} {s : State}
    (converted : Postfix.ofTokens tokens s = .ok output)
    : output.count .toggle = tokens.count .toggle := by
  rw [(Postfix.ofTokens_perm converted).count_eq]
  exact List.count_filter rfl

/-- The state behind a text that has an answer. Witness: each word survives the passes and the
conversion once, and is run once.
-/
theorem run_tokenize_state {text : String} {s next : State} {x : Float}
    (answered : (tokenize text >>= fun tokens => run tokens s) = .ok (x, next))
    : next = s.behind (toggles text) (.ok x) := by
  obtain ⟨explicit, tokenized, ran⟩ := bind_eq_ok_iff.mp answered
  obtain ⟨tokens, lexed, same⟩ := bind_eq_ok_iff.mp tokenized
  cases same
  obtain ⟨output, converted, evaluated⟩ := bind_eq_ok_iff.mp ran
  rw [Postfix.evaluate_state evaluated, count_toggle_ofTokens converted, count_toggle_explicit]
  exact congrArg (fun n => s.behind n (.ok x)) (Lexeme.count_function_tokens _ lexed)

/-- A run whose state is `behind` when it succeeds leaves that state in its outcome. -/
theorem Outcome.ofRun_state {s : State} {n : Nat} {ran : Except CalcError (Float × State)}
    (answered : ∀ x next, ran = .ok (x, next) → next = s.behind n (.ok x))
    : (Outcome.ofRun s ran).state = s.behind n (Outcome.ofRun s ran).result := by
  cases ran with
  | error e => rfl
  | ok pair => exact answered pair.1 pair.2 rfl

theorem solve_state (text : String) (s : State)
    : (solve text s).state = s.behind (toggles text) (solve text s).result :=
  Outcome.ofRun_state fun _ _ ran => run_tokenize_state ran

--------------------------------------------------------------------------------
-- Sessions
--------------------------------------------------------------------------------

/-- A text and its answer. -/
structure Exchange where
  text : String
  result : Except CalcError Float

/-- Answers one text after the other, each in the state that is left by the one before it.
Gives all answers and the last state.
-/
def session : List String → State → List Exchange × State
  | [], s => ([], s)
  | text :: rest, s =>
      let o := solve text s
      let (exchanges, final) := session rest o.state
      (⟨text, o.result⟩ :: exchanges, final)

/-- The exchanges that have an answer. -/
def answered (exchanges : List Exchange) : List Exchange :=
  exchanges.filter fun exchange => exchange.result.isOk

/-- Without the texts that fail, a session has the remaining answers and the same last state.
Witness: induction on the texts; a failure leaves the state to the text behind it.
-/
theorem session_answered (texts : List String) (s : State)
    : session ((answered (session texts s).1).map Exchange.text) s
      = (answered (session texts s).1, (session texts s).2) := by
  induction texts generalizing s with
  | nil => rfl
  | cons text rest ih =>
      have state := solve_state text s
      have others := ih (solve text s).state
      cases result : (solve text s).result with
      | ok x =>
          have kept
              : answered (session (text :: rest) s).1
                = ⟨text, .ok x⟩ :: answered (session rest (solve text s).state).1 := by
            simp [session, answered, result, Except.isOk, Except.toBool]
          rw [kept, List.map_cons, session, others, result]
          rfl
      | error e =>
          have kept
              : answered (session (text :: rest) s).1
                = answered (session rest (solve text s).state).1 := by
            simp [session, answered, result, Except.isOk, Except.toBool]
          rw [result] at state
          have same : (solve text s).state = s := state
          rw [same] at kept others
          rw [kept, others, session, same]

/-- A failure changes nothing. An answer is remembered, and behind it the mode is another one if and
only if there is an odd number of toggles. So it is for texts and for postfix tokens in any order.
Texts that fail take no part in a session.
-/
theorem failures_leave_no_trace
    : (∀ text (s : State), s.Becomes (toggles text) (solve text s).result (solve text s).state)
      ∧ (∀ tokens (s : State),
          let outcome := Outcome.ofRun s (Postfix.evaluate tokens s)
          s.Becomes (tokens.count .toggle) outcome.result outcome.state)
      ∧ (∀ texts s,
          session ((answered (session texts s).1).map Exchange.text) s
            = (answered (session texts s).1, (session texts s).2)) := by
  refine ⟨fun text s => ?_, fun tokens s => ?_, session_answered⟩
  · rw [solve_state]
    exact s.becomes_behind _ _
  · have state
        : (Outcome.ofRun s (Postfix.evaluate tokens s)).state = s.behind (tokens.count .toggle) _ :=
      Outcome.ofRun_state fun _ _ evaluated => Postfix.evaluate_state evaluated
    simp only [state]
    exact s.becomes_behind _ _

example
    : (solve "tog+tog+tog" {}).state.mode = .degree ∧ (solve "tog/0" {}).state = {} := by
  decide +kernel

end Calculator
