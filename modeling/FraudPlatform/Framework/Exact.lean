import FraudPlatform.Framework.Binary64
import Mathlib.Data.Rat.Floor

namespace Framework

/-- A double whose value is known exactly, or NaN. -/
abbrev Exact := Option ℚ

instance : Binary64 Exact where
  zero := some 0
  one := some 1
  neg x := x.map (- ·)
  sub x y := x.bind fun a => y.map (a - ·)
  div x y := x.bind fun a => y.bind fun b => if b = 0 then none else some (a / b)
  lt x y := (x.bind fun a => y.map fun b => decide (a < b)).getD false
  le x y := (x.bind fun a => y.map fun b => decide (a ≤ b)).getD false
  isFinite x := x.isSome
  abs x := x.map fun a => if a < 0 then -a else a
  fixed _ x := (x.map toString).getD "nan"
  repr x := (x.map toString).getD "nan"

end Framework
