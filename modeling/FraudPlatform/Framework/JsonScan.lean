import FraudPlatform.Framework.Ieee
import FraudPlatform.Framework.PyInt
import Mathlib.Data.List.TakeWhile

namespace Framework.JsonScan

open Ieee

/-- What is read off the front of a text, and the text after it. -/
abbrev Scanner (α : Type) := List Char → Option (α × List Char)

def isSpace (c : Char) : Bool := c = ' ' || c = '\t' || c = '\r' || c = '\n'

def skip (cs : List Char) : List Char := cs.dropWhile isSpace

/-- At least one decimal digit, and all that stand together. -/
def digits : Scanner (List Char) := fun cs =>
  if cs.takeWhile Char.isDigit = [] then none
  else some (cs.takeWhile Char.isDigit,cs.dropWhile Char.isDigit)

def sign : Scanner Bool
  | [] => none
  | c :: cs => if c = '-' then some (true,cs) else some (false,c :: cs)

/-- No digit follows a leading zero. -/
def whole : Scanner (List Char)
  | [] => none
  | c :: cs => if c = '0' then some (['0'],cs) else digits (c :: cs)

def fraction : Scanner (List Char)
  | [] => some ([],[])
  | c :: cs => if c = '.' then digits cs else some ([],c :: cs)

def exponentSign : Scanner Bool
  | [] => none
  | c :: cs => if c = '-' then some (true,cs) else if c = '+' then some (false,cs)
    else some (false,c :: cs)

def exponent : Scanner Int
  | [] => some (0,[])
  | c :: cs =>
    if c = 'e' ∨ c = 'E' then do
      let (negative, cs) ← exponentSign cs
      let (ds, cs) ← digits cs
      let n : Int := Nat.ofDigitChars 10 ds 0
      some (if negative then -n else n,cs)
    else some (0,c :: cs)

/-- A number literal: its sign and its magnitude, before any rounding. -/
def number : Scanner (Bool × ℚ) := fun cs => do
  let (negative, cs) ← sign cs
  let (ds, cs) ← whole cs
  let (fs, cs) ← fraction cs
  let (e, cs) ← exponent cs
  some ((negative,Nat.ofDigitChars 10 (ds ++ fs) 0 * 10 ^ (e - fs.length)),cs)

/-- The double nearest to a literal; one beyond all doubles is an error. -/
def toDouble : Bool × ℚ → Option Datum
  | (negative, magnitude) =>
    match binary64.ofRat negative magnitude with
    | .finite s m => some (.finite s m)
    | _ => none

/-- What an escape of two characters stands for. -/
def unescaped (c : Char) : Option Nat :=
  if c = '"' ∨ c = '\\' ∨ c = '/' then some c.toNat
  else if c = 'b' then some 8
  else if c = 'f' then some 12
  else if c = 'n' then some 10
  else if c = 'r' then some 13
  else if c = 't' then some 9
  else none

def hex4 (a b c d : Char) : Option Nat := do
  let a ← PyInt.digit? a
  let b ← PyInt.digit? b
  let c ← PyInt.digit? c
  let d ← PyInt.digit? d
  some (((a * 16 + b) * 16 + c) * 16 + d)

/-- The code units of a string up to its closing quote. -/
def units : Scanner (List Nat)
  | [] => none
  | c :: cs =>
    if c = '"' then some ([],cs)
    else if c = '\\' then
      match cs with
      | [] => none
      | e :: cs =>
        if e = 'u' then
          match cs with
          | a :: b :: c :: d :: cs => do
            let u ← hex4 a b c d
            let (us, cs) ← units cs
            some (u :: us,cs)
          | _ => none
        else do
          let u ← unescaped e
          let (us, cs) ← units cs
          some (u :: us,cs)
    else if c.toNat < 32 then none
    else do
      let (us, cs) ← units cs
      some (c.toNat :: us,cs)

def isHigh (u : Nat) : Bool := 0xd800 ≤ u && u < 0xdc00

def isLow (u : Nat) : Bool := 0xdc00 ≤ u && u < 0xe000

/-- The characters of code units; half of a surrogate pair is replaced. -/
def joinUnits : List Nat → List Char
  | [] => []
  | u :: us =>
    if isHigh u then
      match us with
      | [] => ['\uFFFD']
      | v :: vs =>
        if isLow v then Char.ofNat (0x10000 + (u - 0xd800) * 0x400 + (v - 0xdc00)) :: joinUnits vs
        else '\uFFFD' :: joinUnits (v :: vs)
    else if isLow u then '\uFFFD' :: joinUnits us
    else Char.ofNat u :: joinUnits us

def string : Scanner String
  | [] => none
  | c :: cs =>
    if c = '"' then (units cs).map fun r => (String.ofList (joinUnits r.1),r.2) else none

inductive Value
  | null
  | bool (b : Bool)
  | number (x : Datum)
  | string (s : String)
  | array (items : List Value)
  | object (members : List (String × Value))

variable {α : Type}

/-- Items with commas between them, up to the closing character. -/
def items (item : Scanner α) (close : Char) : Nat → Scanner (List α)
  | 0, _ => none
  | fuel + 1, cs => do
    let (x, cs) ← item (skip cs)
    match skip cs with
    | [] => none
    | c :: cs =>
      if c = close then some ([x],cs)
      else if c = ',' then
        let (xs, cs) ← items item close fuel cs
        some (x :: xs,cs)
      else none

/-- What stands after the opening character: nothing, or items. Every item takes a character. -/
def enclosed (item : Scanner α) (close : Char) : Scanner (List α) := fun cs =>
  match skip cs with
  | [] => none
  | c :: rest =>
    if c = close then some ([],rest) else items item close (c :: rest).length (c :: rest)

def member (value : Scanner α) : Scanner (String × α) := fun cs => do
  let (key, cs) ← string cs
  match skip cs with
  | [] => none
  | c :: cs =>
    if c = ':' then
      let (x, cs) ← value (skip cs)
      some ((key,x),cs)
    else none

def word (expected : List Char) (x : Value) : Scanner Value := fun cs =>
  if expected <+: cs then some (x,cs.drop expected.length) else none

/-- A value inside at most so many brackets. -/
def value : Nat → Scanner Value
  | _, [] => none
  | depth, c :: cs =>
    if c = '{' then
      match depth with
      | 0 => none
      | depth + 1 => (enclosed (member fun cs => value depth cs) '}' cs).map fun r => (.object r.1,r.2)
    else if c = '[' then
      match depth with
      | 0 => none
      | depth + 1 => (enclosed (fun cs => value depth cs) ']' cs).map fun r => (.array r.1,r.2)
    else if c = '"' then (string (c :: cs)).map fun r => (.string r.1,r.2)
    else if c = 'n' then word "null".toList .null (c :: cs)
    else if c = 't' then word "true".toList (.bool true) (c :: cs)
    else if c = 'f' then word "false".toList (.bool false) (c :: cs)
    else do
      let (literal, cs) ← number (c :: cs)
      let x ← toDouble literal
      some (.number x,cs)

/-- `json.Unmarshal` into an `any`: one value and white space around it, `none` where it fails. -/
def unmarshal (cs : List Char) : Option Value := do
  let (x, cs) ← value 10000 (skip cs)
  if skip cs = [] then some x else none

/-- No number goes on with this text. -/
def Ends (rest : List Char) : Prop :=
  ∀ c ∈ rest.head?, c.isDigit = false ∧ c ≠ '.' ∧ c ≠ 'e' ∧ c ≠ 'E'

theorem ends_cons {c : Char} {rest : List Char}
    (h : c.isDigit = false ∧ c ≠ '.' ∧ c ≠ 'e' ∧ c ≠ 'E') : Ends (c :: rest) := by
  intro d hd
  cases hd
  exact h

/-- What the scanner reads at the end of a text it reads before any text that ends a number. -/
def Extends (scan : Scanner α) : Prop :=
  ∀ {cs tail rest : List Char} {x : α}, scan cs = some (x,tail) → Ends rest →
    scan (cs ++ rest) = some (x,tail ++ rest)

theorem extends_digits : Extends digits := by
  intro cs tail rest x h ends
  unfold digits at h
  split_ifs at h with nonempty
  cases h
  have stop : rest.takeWhile Char.isDigit = [] ∧ rest.dropWhile Char.isDigit = rest := by
    cases rest with
    | nil => exact ⟨rfl,rfl⟩
    | cons c rest => simp [(ends c rfl).1]
  have run : (cs ++ rest).takeWhile Char.isDigit = cs.takeWhile Char.isDigit := by
    rw [List.takeWhile_append, stop.1, List.append_nil]
    split_ifs with all
    · exact ((List.takeWhile_prefix Char.isDigit).eq_of_length all).symm
    · rfl
  have left : (cs ++ rest).dropWhile Char.isDigit = cs.dropWhile Char.isDigit ++ rest := by
    rw [List.dropWhile_append, stop.2]
    split_ifs with all
    · rw [List.isEmpty_iff.mp all, List.nil_append]
    · rfl
  rw [digits, run, left, if_neg nonempty]

theorem extends_sign : Extends sign := by
  intro cs tail rest x h _
  cases cs with
  | nil => cases h
  | cons c cs =>
    simp only [sign, List.cons_append] at h ⊢
    split_ifs at h ⊢
    · cases h
      rfl
    · cases h
      rfl

theorem extends_exponentSign : Extends exponentSign := by
  intro cs tail rest x h _
  cases cs with
  | nil => cases h
  | cons c cs =>
    simp only [exponentSign, List.cons_append] at h ⊢
    split_ifs at h ⊢
    all_goals
      cases h
      rfl

theorem extends_whole : Extends whole := by
  intro cs tail rest x h ends
  cases cs with
  | nil => cases h
  | cons c cs =>
    simp only [whole, List.cons_append] at h ⊢
    split_ifs at h ⊢
    · cases h
      rfl
    · exact extends_digits h ends

theorem extends_fraction : Extends fraction := by
  intro cs tail rest x h ends
  cases cs with
  | nil =>
    cases h
    cases rest with
    | nil => rfl
    | cons c rest => simp [fraction, (ends c rfl).2.1]
  | cons c cs =>
    simp only [fraction, List.cons_append] at h ⊢
    split_ifs at h ⊢
    · exact extends_digits h ends
    · cases h
      rfl

theorem extends_exponent : Extends exponent := by
  intro cs tail rest x h ends
  cases cs with
  | nil =>
    cases h
    cases rest with
    | nil => rfl
    | cons c rest => simp [exponent, (ends c rfl).2.2]
  | cons c cs =>
    simp only [exponent, List.cons_append] at h ⊢
    split_ifs at h ⊢
    · simp only [Option.bind_eq_bind, Option.bind_eq_some_iff, Prod.exists] at h
      obtain ⟨negative, afterSign, hs, ds, afterDigits, hd, h⟩ := h
      cases h
      simp only [extends_exponentSign hs ends, extends_digits hd ends, Option.bind_eq_bind,
        Option.bind_some]
    · cases h
      rfl

/-- A number read up to the end of its text is read the same before other text. -/
theorem extends_number : Extends number := by
  intro cs tail rest x h ends
  simp only [number, Option.bind_eq_bind, Option.bind_eq_some_iff, Prod.exists] at h
  obtain ⟨negative, afterSign, hs, ds, afterWhole, hw, fs, afterFraction, hf, e, afterExponent, he,
    h⟩ := h
  cases h
  simp only [number, extends_sign hs ends, extends_whole hw ends, extends_fraction hf ends,
    extends_exponent he ends, Option.bind_eq_bind, Option.bind_some]

theorem head_of_digits {c : Char} {cs : List Char} (h : digits (c :: cs) ≠ none) : c.isDigit := by
  by_contra other
  exact h (by simp [digits, other])

theorem head_of_number {c : Char} {cs : List Char} (h : number (c :: cs) ≠ none) :
    c = '-' ∨ c.isDigit := by
  by_contra other
  rw [not_or] at other
  apply h
  have zero : c ≠ '0' := by
    rintro rfl
    exact other.2 rfl
  have none : digits (c :: cs) = none := by
    by_contra some
    exact other.2 (head_of_digits some)
  simp [number, sign, whole, other.1, zero, none]

/-- What starts no other kind of value is read as a number. -/
theorem value_cons {depth : Nat} {c : Char} {cs : List Char}
    (other : c ∉ ['{','[','"','n','t','f']) :
    value depth (c :: cs) =
      (number (c :: cs)).bind fun r => (toDouble r.1).map fun x => (.number x,r.2) := by
  simp only [List.mem_cons, List.not_mem_nil, or_false, not_or] at other
  rw [value.eq_def]
  simp only [other, if_false, Option.bind_eq_bind]
  cases number (c :: cs) with
  | none => rfl
  | some r =>
    simp only [Option.bind_some]
    cases toDouble r.1 <;> rfl

theorem value_of_number {depth : Nat} {cs : List Char} (h : number cs ≠ none) :
    value depth cs =
      (number cs).bind fun r => (toDouble r.1).map fun x => (.number x,r.2) := by
  cases cs with
  | nil => exact absurd rfl h
  | cons c cs =>
    apply value_cons
    intro special
    have neither : ['{','[','"','n','t','f'].all (fun d => d != '-' && !d.isDigit) := by decide
    have at_c := List.all_eq_true.mp neither c special
    simp only [Bool.and_eq_true, bne_iff_ne, Bool.not_eq_true'] at at_c
    rcases head_of_number h with dash | digit
    · exact at_c.1 dash
    · exact Bool.false_ne_true (at_c.2.symm.trans digit)

theorem value_null {depth : Nat} {rest : List Char} :
    value depth ("null".toList ++ rest) = some (.null,rest) := by
  change value depth ('n' :: ("ull".toList ++ rest)) = _
  rw [value.eq_def]
  simp [word]

end Framework.JsonScan
