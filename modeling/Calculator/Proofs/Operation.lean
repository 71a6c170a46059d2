import Calculator.Operation
import Calculator.Proofs.Sequencing

/-! What operations give. Whatever their operands are, the result is a finite number, or the
operation fails with one of three causes: no result for its operands, a division by zero, and a
result beyond the range.
-/

namespace Calculator

/-- The failures of operations on numbers. -/
inductive CalcError.IsArithmetic : CalcError → Prop where
  | domain (operation : Symbol) : IsArithmetic (.domain operation)
  | dividedByZero (dividend : Float) : IsArithmetic (.dividedByZero dividend)
  | overflow (operation : Symbol) : IsArithmetic (.overflow operation)

/-- The results that operations have: finite numbers and arithmetic failures. -/
inductive IsProper : Except CalcError Float → Prop where
  | finite {x : Float} (finite : x.isFinite = true) : IsProper (.ok x)
  | failure {e : CalcError} (arithmetic : e.IsArithmetic) : IsProper (.error e)

namespace IsProper

variable {result : Except CalcError Float}

theorem isFinite {x : Float} (proper : IsProper result) (succeeded : result = .ok x)
    : x.isFinite = true := by
  subst succeeded
  cases proper with
  | finite finite => exact finite

theorem isArithmetic {e : CalcError} (proper : IsProper result) (failed : result = .error e)
    : e.IsArithmetic := by
  subst failed
  cases proper with
  | failure arithmetic => exact arithmetic

end IsProper

/-- A number is finite, infinite, or none at all. -/
theorem isFinite_of_range {x : Float} (number : x.isNaN = false) (bounded : x.isInf = false)
    : x.isFinite = true := by
  change x.toModel.unpack.isNaN = false at number
  change x.toModel.unpack.isInf = false at bounded
  change x.toModel.unpack.isFinite = true
  cases parts : x.toModel.unpack with
  | zero sign | finite sign m e positive => rfl
  | infinity sign =>
      rw [parts] at bounded
      cases bounded
  | notANumber =>
      rw [parts] at number
      cases number

/-- The check of a result fails for reasons of arithmetic only. -/
theorem finiteResult_isProper (operation : Symbol) (x : Float)
    : IsProper (finiteResult operation x) := by
  unfold finiteResult
  split
  · exact .failure (.domain operation)
  · rename_i number
    split
    · exact .failure (.overflow operation)
    · rename_i bounded
      exact .finite (isFinite_of_range (by simpa using number) (by simpa using bounded))

theorem powerResult_isProper (operation : Symbol) (base exponent : Float)
    : IsProper (powerResult operation base exponent) := by
  unfold powerResult
  split
  · exact .failure (.dividedByZero base)
  · exact finiteResult_isProper operation _

/-- An operator fails for reasons of arithmetic only. -/
theorem Operator.apply_isProper (op : Operator) (a b : Float)
    : IsProper (op.apply a b) := by
  cases op with
  | add | sub | mul => exact finiteResult_isProper _ _
  | div | rem =>
      simp only [Operator.apply]
      split
      · exact .failure (.dividedByZero a)
      · exact finiteResult_isProper _ _
  | pow => exact powerResult_isProper _ a b

theorem UnaryFunction.apply_isProper (f : UnaryFunction) (mode : AngleMode) (x : Float)
    : IsProper (f.apply mode x) := by
  unfold UnaryFunction.apply
  split
  · exact finiteResult_isProper _ _
  · exact .failure (.domain _)

end Calculator
