import Calculator.Proofs.Answer.Decimals
import Calculator.Proofs.Binary.Decimal
import Calculator.Proofs.Binary.Signed
import Calculator.Proofs.Infix.Kept
import Calculator.Proofs.Operation
import Calculator.Proofs.Postfix.Evaluation
import Calculator.Proofs.Postfix.Permutation

/-! Every number is finite: those of a text, those that a run of its tokens leaves on the way, and
its answer, which is no negative zero either.
-/

namespace Calculator

open Binary

--------------------------------------------------------------------------------
-- The numbers of a text
--------------------------------------------------------------------------------

/-- A decimal is read as a finite number, or it is beyond the range. -/
theorem Decimal.isFinite_toFloat {d : Decimal} (bounded : d.toFloat.isInf = false)
    : d.toFloat.isFinite = true := by
  obtain ⟨m, e, nearest, stored⟩ := d.toFloat_eq_store
  rw [stored, isInf_store false nearest.canonical, decide_eq_false_iff_not, not_lt] at bounded
  rw [stored, isFinite_eq, ofFloat?_store false nearest.canonical bounded]
  rfl

/-- Whether a token is a number that is not finite. -/
def Token.isUnbounded : Token → Bool
  | number x => !x.isFinite
  | _ => false

/-- No word and no mark is a number. -/
theorem Token.isUnbounded_of_ofText? {text : String} {t : Token} (named : ofText? text = some t)
    : t.isUnbounded = false := by
  unfold ofText? at named
  split at named
  · cases named
    rfl
  · split at named
    · cases named
      rfl
    · split at named
      · cases named
        rfl
      · obtain ⟨symbol, _, same⟩ := Option.map_eq_some_iff.mp named
        cases symbol <;> cases same <;> rfl

/-- A numeral whose number is beyond the range is refused. -/
theorem Lexeme.isUnbounded_of_token {l : Lexeme} {t : Token} (read : l.token = .ok t)
    : t.isUnbounded = false := by
  cases l with
  | numeral run =>
      change numberToken run = .ok t at read
      unfold numberToken at read
      split at read
      · cases read
      · split at read
        · cases read
        · rename_i bounded
          cases read
          have finite := Decimal.isFinite_toFloat (by simpa using bounded)
          simp [Token.isUnbounded, finite]
  | word run | mark c =>
      unfold token at read
      dsimp only at read
      split at read
      · rename_i named
        cases read
        exact Token.isUnbounded_of_ofText? named
      · cases read

/-- The passes only add zeros. -/
theorem lasting_isUnbounded
    : Infix.Lasting Token.isUnbounded :=
  ⟨fun _ => rfl, rfl, rfl, by decide +kernel⟩

/-- The numbers of a text are finite, in postfix order as well. -/
theorem isUnbounded_of_tokenize {text : String} {s : State} {explicit output : List Token}
    (tokenized : tokenize text = .ok explicit) (converted : Postfix.ofTokens explicit s = .ok output)
    : ∀ t ∈ output, t.isUnbounded = false := by
  obtain ⟨tokens, lexed, same⟩ := bind_eq_ok_iff.mp tokenized
  cases same
  have read : ∀ t ∈ tokens, t.isUnbounded = false :=
    forall_mem_of_mapM (fun _ _ _ => Lexeme.isUnbounded_of_token) lexed
  intro t member
  exact lasting_isUnbounded.not_selected_explicit read t
    (Postfix.mem_of_ofTokens converted member)

--------------------------------------------------------------------------------
-- The values of a run
--------------------------------------------------------------------------------

theorem ModeFunction.isFinite_apply (f : ModeFunction) (s : State)
    : (f.apply s).1.isFinite = true := by
  have code (mode : AngleMode) : mode.code.isFinite = true := by
    cases mode <;> decide +kernel
  cases f <;> exact code _

/-- The constants are finite if the last answer is. -/
theorem Constant.isFinite_of_value? {c : Constant} {s : State} {x : Float}
    (last : ∀ y, s.ans = some y → y.isFinite = true) (value : c.value? s = some x)
    : x.isFinite = true := by
  cases c with
  | pi | e =>
      cases value
      decide +kernel
  | ans => exact last x value

namespace Postfix

/-- All values are finite, and so is the last answer. -/
structure Machine.IsFinite (m : Machine) : Prop where
  values : ∀ x ∈ m.values, x.isFinite = true
  last : ∀ x, m.state.ans = some x → x.isFinite = true

namespace Machine

variable {m next : Machine}

/-- A call gives a finite value. -/
theorem isFinite_of_call {f : Function} {x : Float} (called : m.call f = .ok next)
    (newest : next.values.head? = some x)
    : x.isFinite = true := by
  unfold Machine.call at called
  split at called
  · cases called
    cases newest
    exact ModeFunction.isFinite_apply _ m.state
  · obtain ⟨y, applied, same⟩ := bind_eq_ok_iff.mp called
    cases same
    cases newest
    exact (UnaryFunction.apply_isProper _ _ _).isFinite applied
  · cases called
  · obtain ⟨y, applied, same⟩ := bind_eq_ok_iff.mp called
    cases same
    cases newest
    exact (powerResult_isProper _ _ _).isFinite applied
  · cases called

/-- So does every token. -/
theorem IsFinite.of_step {t : Token} {x : Float} (finite : m.IsFinite)
    (bounded : t.isUnbounded = false) (stepped : m.step t = .ok next)
    (newest : next.values.head? = some x)
    : x.isFinite = true := by
  unfold Machine.step at stepped
  split at stepped
  · cases stepped
    cases newest
    simpa [Token.isUnbounded] using bounded
  · split at stepped
    · rename_i value
      cases stepped
      cases newest
      exact Constant.isFinite_of_value? finite.last value
    · cases stepped
  · obtain ⟨y, applied, same⟩ := bind_eq_ok_iff.mp stepped
    cases same
    cases newest
    exact (Operator.apply_isProper _ _ _).isFinite applied
  · cases stepped
  · exact isFinite_of_call stepped newest
  · cases stepped
  · cases stepped
  · cases stepped

/-- All values stay finite from one token to the next. -/
theorem IsFinite.step {t : Token} (finite : m.IsFinite) (bounded : t.isUnbounded = false)
    (stepped : m.step t = .ok next)
    : next.IsFinite := by
  obtain ⟨x, operands, rest, _, values, replaced, state⟩ := step_eq_ok stepped
  have newest := finite.of_step bounded stepped (by rw [replaced]; rfl)
  constructor
  · rw [replaced]
    refine List.forall_mem_cons.mpr ⟨newest, fun y member => ?_⟩
    exact finite.values y (by simp [values, member])
  · intro y last
    refine finite.last y ?_
    rw [← last, state]
    split <;> rfl

/-- All values are finite at every moment of a run. Witness: induction on the tokens that were run
before.
-/
theorem IsFinite.run {tokens : List Token} (finite : m.IsFinite)
    (bounded : ∀ t ∈ tokens, t.isUnbounded = false) (run : tokens.foldlM Machine.step m = .ok next)
    : next.IsFinite := by
  induction tokens generalizing m with
  | nil =>
      cases run
      exact finite
  | cons t rest ih =>
      obtain ⟨first, later⟩ := List.forall_mem_cons.mp bounded
      obtain ⟨between, stepped, run⟩ := bind_eq_ok_iff.mp (by simpa using run)
      exact ih (finite.step first stepped) later run

end Machine

end Postfix

--------------------------------------------------------------------------------
-- Answers
--------------------------------------------------------------------------------

/-- What can be an answer: a finite number that is no negative zero. -/
structure IsAnswer (x : Float) : Prop where
  finite : x.isFinite = true
  signed : x ≠ -0

/-- A zero without its sign is not the negative one. -/
theorem signless_ne_negative_zero (x : Float)
    : signless x ≠ -0 := by
  unfold signless
  split
  · decide +kernel
  · rename_i nonzero
    intro same
    rw [same] at nonzero
    exact nonzero (by decide +kernel)

/-- A finite number is rounded to an answer. -/
theorem isAnswer_roundAnswer {x : Float} (finite : x.isFinite = true)
    : IsAnswer (roundAnswer x) where
  finite := by
    rw [isFinite_eq] at finite
    obtain ⟨b, parts⟩ := Option.isSome_iff_exists.mp finite
    rcases roundAnswer_cases parts with
      ⟨n, f, _, _, answer⟩ | ⟨n, f, whole, m, e, scales, near, answer⟩
    · rw [answer, isFinite_eq, parts]
      rfl
    · rw [answer]
      split
      · decide +kernel
      · rw [isFinite_eq, ofFloat?_store b.negative near.canonical (scales.exponent_le near)]
        rfl
  signed := by
    rw [roundAnswer_eq]
    exact signless_ne_negative_zero _

end Calculator
