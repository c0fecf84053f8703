import Mathlib.Data.List.Basic

namespace Framework.Datetime

/-- Year, month and day of a day counted from the epoch. -/
def civil (days : Int) : Nat × Nat × Nat :=
  let shifted := days + 719468
  let era := shifted / 146097
  let dayOfEra := (shifted % 146097).toNat
  let yearOfEra := (dayOfEra - dayOfEra / 1460 + dayOfEra / 36524 - dayOfEra / 146096) / 365
  let dayOfYear := dayOfEra - (365 * yearOfEra + yearOfEra / 4 - yearOfEra / 100)
  -- The year begins in March here.
  let month := (5 * dayOfYear + 2) / 153
  let year := yearOfEra + (era * 400).toNat
  (if month < 10 then year else year + 1,if month < 10 then month + 3 else month - 9,
    dayOfYear - (153 * month + 2) / 5 + 1)

def digits : Nat → Nat → List Char
  | 0, _ => []
  | width + 1, n => digits width (n / 10) ++ [Char.ofNat (48 + n % 10)]

/-- `isoformat()` of a UTC time in microseconds since the epoch, of the years 1 to 9999. -/
def isoformat (t : Int) : String :=
  let (year, month, day) := civil (t / 86400000000)
  let micros := (t % 86400000000).toNat
  let seconds := micros / 1000000
  let fraction := micros % 1000000
  String.ofList (digits 4 year ++ '-' :: digits 2 month ++ '-' :: digits 2 day ++
    'T' :: digits 2 (seconds / 3600) ++ ':' :: digits 2 (seconds / 60 % 60) ++
    ':' :: digits 2 (seconds % 60) ++ (if fraction = 0 then [] else '.' :: digits 6 fraction) ++
    "+00:00".toList)

example : isoformat 1735689600000001 = "2025-01-01T00:00:00.000001+00:00" := by decide

end Framework.Datetime
