import Mathlib.Data.Nat.Notation

namespace Framework

/-- The value of a run of decimal digits that is not empty. -/
def readDigits (cs : List Char) : Option Nat :=
  if cs ≠ [] ∧ cs.all Char.isDigit then some (Nat.ofDigitChars 10 cs 0) else none

def int64? (i : Int) : Option Int :=
  if -9223372036854775808 ≤ i ∧ i < 9223372036854775808 then some i else none

/-- `strconv.Atoi`: an optional sign and digits, of a value that fits 64 bits. -/
def atoi (s : String) : Option Int :=
  match s.toList with
  | '-' :: cs => (readDigits cs).bind fun n => int64? (-n)
  | '+' :: cs => (readDigits cs).bind fun n => int64? n
  | cs => (readDigits cs).bind fun n => int64? n

end Framework
