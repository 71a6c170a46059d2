import Mathlib.Algebra.Ring.Parity
import Calculator.Postfix.Evaluation
import Calculator.Proofs.Sequencing

/-! What running postfix tokens does to the state. Each call of the toggle switches the angle
mode, nothing else does, and the answer is remembered at the end only.
-/

namespace Calculator

/-- The function that switches the angle mode. -/
def Token.toggle : Token :=
  .function (.nullary .toggle)

namespace State

/-- The state behind an expression that has called the toggle `toggles` times. A failure
leaves everything as it was.
-/
def behind (s : State) (toggles : Nat) : Except CalcError Float → State
  | .ok x => { mode := if Odd toggles then s.mode.toggled else s.mode, ans := some x }
  | .error _ => s

@[simp]
theorem toggleMode_toggleMode (s : State)
    : s.toggleMode.toggleMode = s := by
  rcases s with ⟨mode, ans⟩
  cases mode <;> rfl

/-- Only whether the number of toggles is odd counts. -/
theorem toggleMode_iterate (s : State) (toggles : Nat)
    : toggleMode^[toggles] s = if Odd toggles then s.toggleMode else s := by
  induction toggles with
  | zero => rfl
  | succ n ih =>
      rw [Function.iterate_succ_apply', ih]
      by_cases odd : Odd n
      · simp [odd, Nat.odd_add_one]
      · simp [odd, Nat.odd_add_one]

end State

namespace Postfix

open Machine

/-- How many values a token takes. Brackets and separators are not run. -/
def operands? : Token → Option Nat
  | .number _ | .constant _ | .function (.nullary _) => some 0
  | .function (.unary _) => some 1
  | .operator _ | .function .power => some 2
  | .openBracket | .closeBracket | .separator => none

/-- A step replaces the operands of its token by one value. It leaves the last answer alone,
and only the toggle switches the mode.
-/
theorem step_eq_ok {m next : Machine} {t : Token} (stepped : m.step t = .ok next)
    : ∃ x operands rest, operands? t = some operands.length ∧ m.values = operands ++ rest
        ∧ next.values = x :: rest
        ∧ next.state = if t = .toggle then m.state.toggleMode else m.state := by
  obtain ⟨values, s⟩ := m
  cases t with
  | number x =>
      cases stepped
      exact ⟨x, [], values, rfl, rfl, rfl, rfl⟩
  | constant c =>
      simp only [step] at stepped
      cases value : c.value? s with
      | none =>
          rw [value] at stepped
          cases stepped
      | some x =>
          rw [value] at stepped
          cases stepped
          exact ⟨x, [], values, rfl, rfl, rfl, rfl⟩
  | operator op =>
      rcases values with - | ⟨b, - | ⟨a, rest⟩⟩
      · cases stepped
      · cases stepped
      · obtain ⟨x, _, same⟩ := bind_eq_ok_iff.mp stepped
        cases same
        exact ⟨x, [b, a], rest, rfl, rfl, rfl, rfl⟩
  | function f =>
      cases f with
      | nullary f =>
          cases stepped
          exact ⟨_, [], values, rfl, rfl, rfl, by cases f <;> rfl⟩
      | unary f =>
          rcases values with - | ⟨a, rest⟩
          · cases stepped
          · obtain ⟨x, _, same⟩ := bind_eq_ok_iff.mp stepped
            cases same
            exact ⟨x, [a], rest, rfl, rfl, rfl, rfl⟩
      | power =>
          rcases values with - | ⟨b, - | ⟨a, rest⟩⟩
          · cases stepped
          · cases stepped
          · obtain ⟨x, _, same⟩ := bind_eq_ok_iff.mp stepped
            cases same
            exact ⟨x, [b, a], rest, rfl, rfl, rfl, rfl⟩
  | openBracket | closeBracket | separator => cases stepped

/-- A run switches the mode once for each toggle in it. Witness: induction on the tokens. -/
theorem run_state {tokens : List Token} {m final : Machine}
    (run : tokens.foldlM Machine.step m = .ok final)
    : final.state = State.toggleMode^[tokens.count .toggle] m.state := by
  induction tokens generalizing m with
  | nil =>
      cases run
      rfl
  | cons t rest ih =>
      obtain ⟨next, stepped, run⟩ := bind_eq_ok_iff.mp (by simpa using run)
      obtain ⟨_, _, _, _, _, _, state⟩ := step_eq_ok stepped
      rw [ih run, state, List.count_cons]
      by_cases toggle : t = .toggle
      · simp [toggle, Function.iterate_succ_apply]
      · simp [toggle]

/-- The state behind an evaluation that has an answer. -/
theorem evaluate_state {tokens : List Token} {s next : State} {x : Float}
    (evaluated : evaluate tokens s = .ok (x, next))
    : next = s.behind (tokens.count .toggle) (.ok x) := by
  obtain ⟨m, run, answered⟩ := bind_eq_ok_iff.mp evaluated
  obtain ⟨y, _, same⟩ := bind_eq_ok_iff.mp answered
  cases same
  rw [run_state run, State.toggleMode_iterate, State.behind]
  split <;> rfl

/-- An answer is the only value, rounded. -/
theorem exists_of_answer {m : Machine} {x : Float} (answered : m.answer = .ok x)
    : ∃ v, m.values = [v] ∧ x = roundAnswer v := by
  obtain ⟨values, s⟩ := m
  rcases values with - | ⟨v, - | ⟨w, rest⟩⟩
  · cases answered
  · cases answered
    exact ⟨v, rfl, rfl⟩
  · cases answered

/-- An answer is a rounded value. -/
theorem exists_of_evaluate {tokens : List Token} {s next : State} {x : Float}
    (evaluated : evaluate tokens s = .ok (x, next))
    : ∃ v, x = roundAnswer v := by
  obtain ⟨m, _, answered⟩ := bind_eq_ok_iff.mp evaluated
  obtain ⟨y, rounded, same⟩ := bind_eq_ok_iff.mp answered
  cases same
  obtain ⟨v, _, answer⟩ := exists_of_answer rounded
  exact ⟨v, answer⟩

end Postfix

end Calculator
