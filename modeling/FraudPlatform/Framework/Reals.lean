import Mathlib.Analysis.SpecialFunctions.Log.Basic
import Mathlib.Analysis.SpecialFunctions.Pow.Real
import FraudPlatform.Framework.Numpy

namespace Framework

open scoped Classical in
/-- Exact arithmetic: no rounding, no NaN, and no text of a value. -/
noncomputable instance : Numpy ℝ where
  lt x y := decide (x < y)
  le x y := decide (x ≤ y)
  isFinite _ := true
  abs x := |x|
  fixed _ _ := ""
  repr _ := ""
  ofInt n := n
  decimal m n := m / 10 ^ n
  floor x := ⌊x⌋
  log := Real.log
  sqrt := Real.sqrt
  sum := List.sum

namespace Reals

@[simp] theorem lt_eq (x y : ℝ) : Binary64.lt x y = decide (x < y) := by
  simp [Binary64.lt]

@[simp] theorem le_eq (x y : ℝ) : Binary64.le x y = decide (x ≤ y) := by
  simp [Binary64.le]

@[simp] theorem ofInt_eq (n : Int) : (Numpy.ofInt n : ℝ) = n := rfl

end Reals

end Framework
