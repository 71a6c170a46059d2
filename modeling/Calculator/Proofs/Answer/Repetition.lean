import Calculator.Proofs.Answer.Stability
import Calculator.Proofs.Session

/-! Asking for the last answer. It is rounded once more, which leaves all answers as they are
but those that drift.
-/

namespace Calculator

open Binary

/-- An answer that is not rounded to itself. Its magnitude is at least four and below `2 ^ 52`
units of the last digit, and the number that stores it is more than a quarter and less than a
half of such a unit above a whole number of them.
-/
def Drifts (x : Float) : Prop :=
  ∃ b, ofFloat? x = some b ∧ Drifting b.absolute

/-- A finite number drifts if its magnitude does. -/
theorem drifts_iff {x : Float} {b : Binary} (finite : ofFloat? x = some b)
    : Drifts x ↔ Drifting b.absolute := by
  constructor
  · intro drifts
    obtain ⟨other, same, drifting⟩ := drifts
    rw [finite, Option.some.injEq] at same
    rw [same]
    exact drifting
  · intro drifting
    exact ⟨b, finite, drifting⟩

theorem not_drifts_of_none {x : Float} (special : ofFloat? x = none)
    : ¬ Drifts x := by
  intro drifts
  obtain ⟨b, finite, _⟩ := drifts
  rw [special] at finite
  cases finite

/-- What is too large to be scaled does not drift. -/
theorem not_drifting_of_large {v : Rat} {n : Nat} {f : Int} (nearest : Nearest (v * scale) n f)
    (large : cutOff ≤ magnitude n f)
    : ¬ Drifting v := by
  intro drifting
  obtain ⟨_, below, _⟩ := drifting
  have le := nearest.le_two_pow (k := 52) (by norm_num) below.le
  have := large.trans le
  norm_num [cutOff] at this

theorem ofFloat?_zero
    : ofFloat? 0 = some ⟨false, 0, -1074⟩ := by
  decide +kernel

theorem not_drifts_zero
    : ¬ Drifts 0 := by
  rw [drifts_iff ofFloat?_zero]
  intro drifting
  have four := drifting.1
  norm_num [absolute, magnitude] at four

/-- A number determines the canonical parts that it is stored with. -/
theorem store_inj {negative : Bool} {m n : Nat} {e f : Int} (a : Canonical m e)
    (b : Canonical n f) (a_range : e ≤ 971) (b_range : f ≤ 971)
    (same : store negative m e = store negative n f)
    : m = n ∧ e = f := by
  have parts := ofFloat?_store negative a a_range
  rw [same, ofFloat?_store negative b b_range, Option.some.injEq, Binary.mk.injEq] at parts
  exact ⟨parts.2.1.symm, parts.2.2.symm⟩

/-- A nonzero answer that was scaled back is rounded to itself exactly if it does not drift. -/
theorem roundAnswer_store_eq_self_iff {v : Rat} {n m : Nat} {f e : Int} {whole : Nat}
    (negative : Bool) (scales : Scales v n f whole) (near : Nearest (whole / scale) m e)
    (nonzero : m ≠ 0)
    : roundAnswer (store negative m e) = store negative m e ↔ ¬ Drifts (store negative m e) := by
  have finite := ofFloat?_store negative near.canonical (scales.exponent_le near)
  rw [drifts_iff finite]
  rcases roundAnswer_cases finite with
    ⟨n', f', nearest, large, answer⟩ | ⟨n', f', whole', m', e', again, near', answer⟩
  · exact iff_of_true answer (not_drifting_of_large nearest large)
  · refine Iff.trans ?_ (same_iff_not_drifting near scales.whole_lt again near')
    rw [answer]
    constructor
    · intro same
      have other : m' ≠ 0 := by
        intro zero
        rw [if_pos zero] at same
        rw [← same, ofFloat?_zero, Option.some.injEq, Binary.mk.injEq] at finite
        exact nonzero finite.2.1.symm
      rw [if_neg other] at same
      exact store_inj near'.canonical near.canonical (again.exponent_le near')
        (scales.exponent_le near) same
    · intro same
      rw [same.1, same.2, if_neg nonzero]

/-- An answer is rounded to itself exactly if it does not drift. -/
theorem roundAnswer_eq_self_iff (v : Float)
    : roundAnswer (roundAnswer v) = roundAnswer v ↔ ¬ Drifts (roundAnswer v) := by
  cases finite : ofFloat? v with
  | none =>
      rw [roundAnswer_of_none finite, roundAnswer_of_none finite]
      exact iff_of_true rfl (not_drifts_of_none finite)
  | some b =>
      rcases roundAnswer_cases finite with
        ⟨n, f, nearest, large, answer⟩ | ⟨n, f, whole, m, e, scales, near, answer⟩
      · rw [answer, answer, drifts_iff finite]
        exact iff_of_true rfl (not_drifting_of_large nearest large)
      · rw [answer]
        by_cases zero : m = 0
        · rw [if_pos zero]
          exact iff_of_true (by decide +kernel) not_drifts_zero
        · rw [if_neg zero]
          exact roundAnswer_store_eq_self_iff b.negative scales near zero

--------------------------------------------------------------------------------
-- Asking for the last answer
--------------------------------------------------------------------------------

/-- The value of the last answer is rounded like that of any other expression. -/
theorem solve_ans {s : State} {x : Float} (last : s.ans = some x)
    : solve "ans" s = ⟨.ok (roundAnswer x), { s with ans := some (roundAnswer x) }⟩ := by
  have tokenized : tokenize "ans" = .ok [.constant .ans] := rfl
  obtain ⟨mode, ans⟩ := s
  subst last
  rw [solve, tokenized]
  rfl

/-- Every answer has been rounded, and is the last answer then. -/
theorem solve_ok {text : String} {s : State} {r : Float} (answered : (solve text s).result = .ok r)
    : (∃ v, r = roundAnswer v) ∧ (solve text s).state.ans = some r := by
  have state := solve_state text s
  rw [answered] at state
  refine ⟨?_, by rw [state]; rfl⟩
  cases ran : tokenize text >>= fun tokens => run tokens s with
  | error e =>
      rw [solve, ran] at answered
      cases answered
  | ok pair =>
      rw [solve, ran] at answered
      cases answered
      obtain ⟨tokens, _, ran⟩ := bind_eq_ok_iff.mp ran
      obtain ⟨output, _, evaluated⟩ := bind_eq_ok_iff.mp ran
      exact Postfix.exists_of_evaluate evaluated

/-- Asking for the last answer rounds it once more, and so gives the same answer and leaves the
state as it is exactly if the answer does not drift. Witness: an answer is the nearest number to
a whole number of units of its last digit, and scaling it finds that number again.
-/
theorem answer_repeats_iff_not_drifts (text : String) (s : State)
    : (∀ v, roundAnswer (roundAnswer v) = roundAnswer v ↔ ¬ Drifts (roundAnswer v))
      ∧ ∀ r, (solve text s).result = .ok r →
          let after := (solve text s).state
          solve "ans" after = ⟨.ok (roundAnswer r), { after with ans := some (roundAnswer r) }⟩
            ∧ (solve "ans" after = ⟨.ok r, after⟩ ↔ ¬ Drifts r) := by
  refine ⟨roundAnswer_eq_self_iff, fun r answered => ?_⟩
  obtain ⟨⟨v, rounded⟩, last⟩ := solve_ok answered
  have again := solve_ans last
  refine ⟨again, ?_⟩
  have unchanged : { (solve text s).state with ans := some r } = (solve text s).state := by
    rw [← last]
  rw [again, rounded, ← roundAnswer_eq_self_iff v, ← rounded]
  constructor
  · intro same
    exact Except.ok.inj (congrArg Outcome.result same)
  · intro same
    rw [same, unchanged]

/-- An answer to which `ans` is another one. -/
theorem solve_ans_of_drifting_answer
    : let answer : Float := .ofBits 0x401106cec09fb73f
      let after := (solve "4.2566480729563505" {}).state
      (solve "4.2566480729563505" {}).result = .ok answer
        ∧ solve "ans" after ≠ ⟨.ok answer, after⟩ := by
  have answered
      : (solve "4.2566480729563505" {}).result = .ok (.ofBits 0x401106cec09fb73f) := by
    decide +kernel
  have drifts : Drifts (.ofBits 0x401106cec09fb73f) := by
    refine ⟨⟨false, 0x1106cec09fb73f, -50⟩, by decide +kernel, ?_⟩
    have scaled
        : absolute ⟨false, 0x1106cec09fb73f, -50⟩ * scale
          = 4256648072956351 + 13463446707 / 34359738368 := by
      norm_num [absolute, magnitude, scale]
    have fract
        : Int.fract (absolute ⟨false, 0x1106cec09fb73f, -50⟩ * scale)
          = 13463446707 / 34359738368 := by
      rw [scaled, Int.fract_eq_iff]
      exact ⟨by norm_num, by norm_num, 4256648072956351, by norm_num⟩
    refine ⟨by norm_num [absolute, magnitude], ?_, ?_, ?_⟩
    · rw [scaled]
      norm_num
    · rw [fract]
      norm_num
    · rw [fract]
      norm_num
  exact ⟨answered, fun same =>
    ((answer_repeats_iff_not_drifts _ {}).2 _ answered).2.mp same drifts⟩

end Calculator
