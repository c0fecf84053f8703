import Mathlib.Algebra.Notation.Defs

namespace Framework

/-- What a program may do with an IEEE double. No law is assumed, so a result over this class
holds for rounded arithmetic, signed zeros and NaN alike. -/
class Binary64 (F : Type) extends Zero F, One F, Neg F, Sub F, Div F where
  /-- `x < y`, false when either side is NaN. -/
  lt : F → F → Bool
  /-- `x ≤ y`, false when either side is NaN. -/
  le : F → F → Bool
  isFinite : F → Bool
  abs : F → F
  /-- The decimal text with a fixed number of digits. -/
  fixed : Nat → F → String
  /-- The shortest decimal text that reads back as the value. -/
  repr : F → String

end Framework
