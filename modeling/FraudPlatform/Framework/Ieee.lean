import Mathlib.Algebra.Order.Field.Power
import Mathlib.Data.Int.Log
import Mathlib.Data.Rat.Floor
import Mathlib.Tactic.Linarith
import Mathlib.Tactic.Ring

namespace Framework.Ieee

/-- A binary format: its significant bits, the exponent of its least positive value, and the
power of two that no finite value reaches. -/
structure Format where
  precision : Nat
  minExponent : Int
  maxExponent : Int
  deriving DecidableEq, Repr

def binary32 : Format := ⟨24,-149,128⟩

def binary64 : Format := ⟨53,-1074,1024⟩

/-- What a floating-point variable holds; the sign of zero is kept. -/
inductive Datum
  | nan
  | infinite (negative : Bool)
  | finite (negative : Bool) (magnitude : ℚ)
  deriving DecidableEq, Repr

/-- The nearest integer, the even one of two. -/
def roundHalfEven (q : ℚ) : Int :=
  if q - ⌊q⌋ < 1 / 2 then ⌊q⌋
  else if 1 / 2 < q - ⌊q⌋ then ⌊q⌋ + 1
  else if ⌊q⌋ % 2 = 0 then ⌊q⌋ else ⌊q⌋ + 1

/-- The distance of neighbouring values around `q`. -/
def Format.ulp (fmt : Format) (q : ℚ) : ℚ :=
  2 ^ max (Int.log 2 q - (fmt.precision - 1)) fmt.minExponent

/-- The nearest multiple of the distance, as if no value were too large. -/
def Format.round (fmt : Format) (q : ℚ) : ℚ := roundHalfEven (q / fmt.ulp q) * fmt.ulp q

/-- The value nearest to a signed magnitude. -/
def Format.ofRat (fmt : Format) (negative : Bool) (magnitude : ℚ) : Datum :=
  if fmt.round magnitude < 2 ^ fmt.maxExponent then .finite negative (fmt.round magnitude)
  else .infinite negative

def Format.ofInt (fmt : Format) (n : Int) : Datum := fmt.ofRat (n < 0) n.natAbs

/-- The conversion to the format. -/
def Format.convert (fmt : Format) : Datum → Datum
  | .finite negative magnitude => fmt.ofRat negative magnitude
  | x => x

def Datum.value : Datum → Option ℚ
  | .finite negative magnitude => some (if negative then -magnitude else magnitude)
  | _ => none

theorem roundHalfEven_intCast (n : Int) : roundHalfEven n = n := by
  simp [roundHalfEven]

theorem Format.ulp_pos (fmt : Format) (q : ℚ) : 0 < fmt.ulp q := by
  exact zpow_pos (by norm_num) _

theorem Format.round_of_multiple {fmt : Format} {q : ℚ} {n : Int} (h : q = n * fmt.ulp q) :
    fmt.round q = q := by
  have quotient : q / fmt.ulp q = n := by
    rw [div_eq_iff (fmt.ulp_pos q).ne']
    exact h
  rw [Format.round, quotient, roundHalfEven_intCast]
  exact h.symm

/-- The integers up to two to the precision are values of the format. -/
theorem Format.round_natCast {fmt : Format} (subnormal : fmt.minExponent ≤ 0)
    (some : 1 ≤ fmt.precision) {n : Nat} (hn : n ≤ 2 ^ fmt.precision) : fmt.round n = n := by
  have base : (2 : ℚ) ≠ 0 := two_ne_zero
  have multiple (j : Nat) (hj : max ((Nat.log 2 n : Int) - (fmt.precision - 1)) fmt.minExponent =
      -(j : Int)) : fmt.round n = n := by
    apply Format.round_of_multiple (n := n * 2 ^ j)
    rw [Format.ulp, Int.log_natCast, hj, zpow_neg, zpow_natCast]
    push_cast
    rw [mul_assoc, mul_inv_cancel₀ (pow_ne_zero j base), mul_one]
  by_cases small : Nat.log 2 n + 1 ≤ fmt.precision
  · obtain ⟨j, hj⟩ := Int.eq_ofNat_of_zero_le (a := -max ((Nat.log 2 n : Int) -
      (fmt.precision - 1)) fmt.minExponent) (by omega)
    exact multiple j (by omega)
  · have nonzero : n ≠ 0 := by
      rintro rfl
      rw [Nat.log_zero_right] at small
      omega
    have top : n = 2 ^ fmt.precision := by
      have reached := Nat.pow_log_le_self 2 nonzero
      have above := Nat.pow_le_pow_right (n := 2) (by decide)
        (show fmt.precision ≤ Nat.log 2 n by omega)
      omega
    have log : Nat.log 2 n = fmt.precision := by
      rw [top]
      exact Nat.log_pow (by decide) _
    obtain ⟨p, hp⟩ := Nat.exists_eq_add_of_le' some
    have exponent : max ((Nat.log 2 n : Int) - (fmt.precision - 1)) fmt.minExponent = 1 := by
      omega
    apply Format.round_of_multiple (n := 2 ^ p)
    rw [Format.ulp, Int.log_natCast, exponent, zpow_one, top, hp]
    push_cast
    ring

/-- Such integers convert exactly. -/
theorem Format.value_ofInt {fmt : Format} (subnormal : fmt.minExponent ≤ 0)
    (some : 1 ≤ fmt.precision) (room : (fmt.precision : Int) < fmt.maxExponent) {n : Int}
    (hn : n.natAbs ≤ 2 ^ fmt.precision) : (fmt.ofInt n).value = Option.some (n : ℚ) := by
  have exact := Format.round_natCast subnormal some hn
  have below : (n.natAbs : ℚ) < 2 ^ fmt.maxExponent := by
    have cast : (n.natAbs : ℚ) ≤ 2 ^ (fmt.precision : Int) := by
      rw [zpow_natCast]
      exact_mod_cast hn
    exact cast.trans_lt (zpow_lt_zpow_right₀ one_lt_two room)
  rw [Format.ofInt, Format.ofRat, exact, if_pos below, Datum.value]
  by_cases negative : n < 0
  · have abs : (n.natAbs : Int) = -n := by omega
    have cast : (n.natAbs : ℚ) = -n := by rw [← Int.cast_natCast, abs, Int.cast_neg]
    rw [decide_eq_true negative, if_pos rfl, cast, neg_neg]
  · have abs : (n.natAbs : Int) = n := by omega
    have cast : (n.natAbs : ℚ) = n := by rw [← Int.cast_natCast, abs]
    rw [decide_eq_false negative, if_neg Bool.false_ne_true, cast]

end Framework.Ieee
