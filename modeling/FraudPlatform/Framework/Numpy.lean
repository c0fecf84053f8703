import FraudPlatform.Framework.Binary64
import Mathlib.Algebra.Ring.Nat
import Mathlib.Data.List.Sort

namespace Framework

/-- What an array program does with doubles, again without any law. -/
class Numpy (F : Type) extends Binary64 F, Add F, Mul F where
  ofInt : Int → F
  /-- The literal `m`e-`n`. -/
  decimal : Nat → Nat → F
  floor : F → Int
  log : F → F
  sqrt : F → F
  /-- `np.sum`, in whichever order NumPy adds. -/
  sum : List F → F

namespace Numpy

variable {F : Type} [Numpy F]

def isNaN (x : F) : Bool := !Binary64.le x x

/-- `x == y` -/
def same (x y : F) : Bool := Binary64.le x y && Binary64.le y x

/-- The order NumPy sorts by, with NaN last. -/
def before (x y : F) : Bool := Binary64.lt x y || (isNaN y && !isNaN x)

/-- `np.sort` -/
def sort (xs : List F) : List F := xs.insertionSort fun x y => before y x = false

/-- What is left of a sorted list after `p` when each value is kept once. -/
def dropRepeats (p : F) : List F → List F
  | [] => []
  | x :: xs =>
    if same p x || (isNaN p && isNaN x) then dropRepeats p xs else x :: dropRepeats x xs

/-- `np.unique` -/
def unique (xs : List F) : List F :=
  match sort xs with
  | [] => []
  | x :: xs => x :: dropRepeats x xs

/-- `np.linspace` -/
def linspace (start stop : F) (num : Nat) : List F :=
  if num = 1 then [start]
  else
    let step := (stop - start) / ofInt (num - 1)
    (List.range num).map fun i => if i + 1 = num then stop else ofInt i * step + start

def lerp (a b t : F) : F :=
  if Binary64.le (decimal 5 1) t then b - (b - a) * (1 - t) else a + (b - a) * t

/-- `np.percentile` of a sample with the least value `x`, linear between the order statistics. -/
def percentileOf (x : F) (xs : List F) (q : F) : F :=
  let sorted := sort (x :: xs)
  let last := sorted.getLastD x
  let virtual := ofInt xs.length * (q / ofInt 100)
  let previous := floor virtual
  if isNaN last || xs.length ≤ previous then last
  else lerp (sorted.getD previous.toNat last) (sorted.getD (previous.toNat + 1) last)
    (virtual - ofInt previous)

/-- `np.percentile`, which no empty sample has. -/
def percentile : List F → F → Option F
  | [], _ => none
  | x :: xs, q => some (percentileOf x xs q)

/-- `np.diff` -/
def diff : List Int → List Int
  | a :: b :: rest => (b - a) :: diff (b :: rest)
  | _ => []

/-- `np.histogram` over increasing edges; the last bin holds its right edge. -/
def histogram (xs : List F) (edges : List F) : List Int :=
  let below (e : F) : Int := xs.countP fun x => before x e
  let upTo (e : F) : Int := xs.countP fun x => !before e x
  match edges.getLast? with
  | none => []
  | some last => diff (edges.dropLast.map below ++ [upTo last])

/-- `np.where(xs == 0, y, xs)` -/
def replaceZero (y : F) (xs : List F) : List F := xs.map fun x => if same x 0 then y else x

def mean (xs : List F) : F := sum xs / ofInt xs.length

def std (xs : List F) : F :=
  let m := mean xs
  sqrt (sum (xs.map fun x => (x - m) * (x - m)) / ofInt xs.length)

def cov (xs ys : List F) : F :=
  let mx := mean xs
  let my := mean ys
  sum (List.zipWith (fun x y => (x - mx) * (y - my)) xs ys) * (1 / ofInt (xs.length - 1))

/-- `np.corrcoef(xs, ys)[0, 1]` -/
def corrcoef (xs ys : List F) : F :=
  let r := cov xs ys / sqrt (cov xs xs) / sqrt (cov ys ys)
  if Binary64.lt r (-1) then -1 else if Binary64.lt 1 r then 1 else r

end Numpy

end Framework
