import Calculator.Command
import Calculator.Proofs.Answer.Finite
import Calculator.Proofs.Session

/-! What states remember. Whatever a program does with its states, their last answers are answers:
finite, and no negative zeros. So a run that asks for them sees finite values only.
-/

namespace Calculator

/-- The last answer is one, if there is any. -/
def State.IsSound (s : State) : Prop :=
  ∀ x, s.ans = some x → IsAnswer x

/-- A moment of a run: the machine after some of the tokens that a text is converted to. -/
def Passes (text : String) (s : State) (m : Postfix.Machine) : Prop :=
  ∃ explicit output before,
    tokenize text = .ok explicit ∧ Postfix.ofTokens explicit s = .ok output ∧ before <+: output
      ∧ before.foldlM Postfix.Machine.step { state := s } = .ok m

namespace State.IsSound

variable {s : State}

theorem isFinite (sound : s.IsSound)
    : Postfix.Machine.IsFinite { state := s } where
  values := by simp
  last := fun x last => (sound x last).finite

/-- At every moment of a run all values are finite. -/
theorem passes (sound : s.IsSound) {text : String} {m : Postfix.Machine} (passes : Passes text s m)
    : m.IsFinite := by
  obtain ⟨explicit, output, before, tokenized, converted, front, run⟩ := passes
  have bounded := isUnbounded_of_tokenize tokenized converted
  exact sound.isFinite.run (fun t member => bounded t (front.subset member)) run

/-- What a text is answered with is an answer. -/
theorem answered (sound : s.IsSound) {text : String} {x : Float}
    (answered : (Calculator.solve text s).result = .ok x)
    : IsAnswer x := by
  cases ran : tokenize text >>= fun tokens => run tokens s with
  | error e =>
      rw [Calculator.solve, ran] at answered
      cases answered
  | ok pair =>
      rw [Calculator.solve, ran] at answered
      cases answered
      obtain ⟨explicit, tokenized, ran⟩ := bind_eq_ok_iff.mp ran
      obtain ⟨output, converted, evaluated⟩ := bind_eq_ok_iff.mp ran
      obtain ⟨m, stepped, single⟩ := bind_eq_ok_iff.mp evaluated
      obtain ⟨y, rounded, same⟩ := bind_eq_ok_iff.mp single
      cases same
      obtain ⟨v, values, answer⟩ := Postfix.exists_of_answer rounded
      have finite := sound.passes
        ⟨explicit, output, output, tokenized, converted, List.prefix_refl _, stepped⟩
      have last := finite.values v (by simp [values])
      exact answer ▸ isAnswer_roundAnswer last

/-- Answering a text leaves a sound state, with or without an answer. -/
theorem solve (sound : s.IsSound) (text : String)
    : (Calculator.solve text s).state.IsSound := by
  rw [solve_state]
  cases result : (Calculator.solve text s).result with
  | error e => exact sound
  | ok x =>
      rintro y ⟨⟩
      exact sound.answered result

end State.IsSound

/-- A command leaves a sound state among sound states. -/
theorem Command.apply_isSound {states : Nat → State} (sound : ∀ k, (states k).IsSound) {s : State}
    (s_sound : s.IsSound) (c : Command)
    : (c.apply states s).IsSound := by
  cases c with
  | create mode => simp [apply, State.IsSound]
  | copy source => exact sound source
  | solve text => exact s_sound.solve text
  | setMode mode => exact s_sound
  | toggleMode => exact s_sound
  | reset => simp [apply, State.IsSound, State.reset]

theorem Instruction.execute_isSound {states : Nat → State} (sound : ∀ k, (states k).IsSound)
    (i : Instruction) (k : Nat)
    : (i.execute states k).IsSound := by
  unfold execute
  split
  · exact i.command.apply_isSound sound (sound k)
  · exact sound k

/-- All states of a program are sound. Witness: induction on its instructions. -/
theorem statesBehind_isSound (program : List Instruction) (k : Nat)
    : (statesBehind program k).IsSound := by
  have run (states : Nat → State) (sound : ∀ k, (states k).IsSound)
      : ∀ k, (program.foldl Instruction.execute states k).IsSound := by
    induction program generalizing states with
    | nil => exact sound
    | cons i rest ih => exact ih _ (i.execute_isSound sound)
  exact run _ (fun _ => by simp [State.IsSound]) k

/-- No infinity, no negative zero, and nothing but numbers: in every state of a program the last
answer is an answer, every text is answered with one if it is answered at all, and every value on
the way is finite.
-/
theorem answers_are_finite (program : List Instruction) (k : Nat)
    : let s := statesBehind program k
      (∀ x, s.ans = some x → IsAnswer x)
        ∧ ∀ text,
            (∀ x, (solve text s).result = .ok x → IsAnswer x)
              ∧ ∀ m, Passes text s m → ∀ x ∈ m.values, x.isFinite = true := by
  have sound := statesBehind_isSound program k
  exact ⟨sound, fun text => ⟨fun x answered => sound.answered answered,
    fun m passes => (sound.passes passes).values⟩⟩

/-- Witness: the copy of a state, asked for half of its last answer. -/
theorem answers_are_finite_half
    : let program : List Instruction := [⟨0, .solve "2 + 3"⟩, ⟨1, .copy 0⟩, ⟨1, .setMode .degree⟩]
      let copied := statesBehind program 1
      let divided : Postfix.Machine := ⟨[2, 5], copied⟩
      copied.ans = some 5 ∧ IsAnswer 5
        ∧ (solve "ans / 2" copied).result = .ok 2.5 ∧ IsAnswer 2.5
        ∧ Passes "ans / 2" copied divided ∧ ∀ x ∈ divided.values, x.isFinite = true := by
  intro program copied divided
  have remembered : copied = { mode := .degree, ans := some 5 } := by decide +kernel
  have last : copied.ans = some 5 := by rw [remembered]
  have half : (solve "ans / 2" copied).result = .ok 2.5 := by
    rw [remembered]
    decide +kernel
  have passes : Passes "ans / 2" copied divided := by
    simp only [divided, remembered]
    exact ⟨_, _, [.constant .ans, .number 2], rfl, rfl, by decide +kernel, rfl⟩
  obtain ⟨answers, texts⟩ := answers_are_finite program 1
  obtain ⟨answered, values⟩ := texts "ans / 2"
  exact ⟨last, answers 5 last, half, answered 2.5 half, passes, values divided passes⟩

end Calculator
