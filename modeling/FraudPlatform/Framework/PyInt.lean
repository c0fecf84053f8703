import Mathlib.Algebra.Ring.Nat
import Mathlib.Data.List.TakeWhile
import Mathlib.Tactic.SplitIfs

namespace Framework.PyInt

/-- The zeros of the decimal digits of Unicode 14, beyond ASCII. -/
def decimalZeros : List Nat :=
  [0x660,0x6f0,0x7c0,0x966,0x9e6,0xa66,0xae6,0xb66,0xbe6,0xc66,0xce6,0xd66,0xde6,0xe50,0xed0,0xf20,
    0x1040,0x1090,0x17e0,0x1810,0x1946,0x19d0,0x1a80,0x1a90,0x1b50,0x1bb0,0x1c40,0x1c50,0xa620,
    0xa8d0,0xa900,0xa9d0,0xa9f0,0xaa50,0xabf0,0xff10,0x104a0,0x10d30,0x11066,0x110f0,0x11136,
    0x111d0,0x112f0,0x11450,0x114d0,0x11650,0x116c0,0x11730,0x118e0,0x11950,0x11c50,0x11d50,
    0x11da0,0x16a60,0x16ac0,0x16b50,0x1d7ce,0x1d7d8,0x1d7e2,0x1d7ec,0x1d7f6,0x1e140,0x1e2f0,
    0x1e950,0x1fbf0]

/-- The white space beyond ASCII. -/
def wideSpaces : List Nat :=
  [0x85,0xa0,0x1680,0x2000,0x2001,0x2002,0x2003,0x2004,0x2005,0x2006,0x2007,0x2008,0x2009,0x200a,
    0x2028,0x2029,0x202f,0x205f,0x3000]

/-- Spaces and decimal digits of any script become their ASCII ones, the rest a question mark. -/
def toAscii (c : Char) : Char :=
  if c.toNat < 127 then c
  else if c.toNat ∈ wideSpaces then ' '
  else
    match decimalZeros.find? fun z => z ≤ c.toNat && c.toNat < z + 10 with
    | some z => Char.ofNat (48 + (c.toNat - z))
    | none => '?'

def isSpace (c : Char) : Bool := c = ' ' || (9 ≤ c.toNat && c.toNat ≤ 13)

def digit? (c : Char) : Option Nat :=
  if '0' ≤ c ∧ c ≤ '9' then some (c.toNat - 48)
  else if 'a' ≤ c ∧ c ≤ 'f' then some (c.toNat - 87)
  else if 'A' ≤ c ∧ c ≤ 'F' then some (c.toNat - 55)
  else none

/-- The digits, with single underscores between them: their value and what follows. -/
def scanDigits (value : Nat) (underscore : Bool) : List Char → Option (Nat × List Char)
  | [] => if underscore then none else some (value,[])
  | c :: cs =>
    match digit? c with
    | some d => scanDigits (value * 16 + d) false cs
    | none =>
      if underscore then none
      else if c = '_' then scanDigits value true cs
      else some (value,c :: cs)

/-- A prefix `0x`, and the underscore that may follow it. -/
def dropPrefix : List Char → List Char
  | '0' :: 'x' :: '_' :: cs | '0' :: 'X' :: '_' :: cs => cs
  | '0' :: 'x' :: cs | '0' :: 'X' :: cs => cs
  | cs => cs

def unsigned (s : List Char) : Option (Nat × List Char) :=
  match dropPrefix s with
  | [] => none
  | c :: cs => if (digit? c).isSome then scanDigits 0 false (c :: cs) else none

/-- `int(s, 16)`, `none` where it raises. -/
def int16 (s : List Char) : Option Int :=
  match (s.map toAscii).dropWhile isSpace with
  | '-' :: cs =>
    match unsigned cs with
    | some (n, rest) => if rest.all isSpace then some (-n) else none
    | none => none
  | '+' :: cs =>
    match unsigned cs with
    | some (n, rest) => if rest.all isSpace then some n else none
    | none => none
  | cs =>
    match unsigned cs with
    | some (n, rest) => if rest.all isSpace then some n else none
    | none => none

example : (int16 "ff".toList, int16 "-1".toList, int16 " 7".toList, int16 "zz".toList) =
    (some 255, some (-1), some 7, none) := by decide

theorem digit?_lt {c : Char} {d : Nat} (h : digit? c = some d) : d < 16 := by
  have upper {x y : Char} (hxy : x ≤ y) : x.toNat ≤ y.toNat := hxy
  unfold digit? at h
  split_ifs at h with h₁ h₂ h₃
  · have bound := upper h₁.2
    cases h
    change c.toNat ≤ 57 at bound
    omega
  · have bound := upper h₂.2
    cases h
    change c.toNat ≤ 102 at bound
    omega
  · have bound := upper h₃.2
    cases h
    change c.toNat ≤ 70 at bound
    omega

theorem scanDigits_lt {value n : Nat} {underscore : Bool} {s rest : List Char}
    (h : scanDigits value underscore s = some (n,rest)) : n < (value + 1) * 16 ^ s.length := by
  induction s generalizing value underscore with
  | nil =>
    rw [scanDigits] at h
    split_ifs at h
    cases h
    simp
  | cons c cs ih =>
    rw [scanDigits] at h
    rw [List.length_cons, Nat.pow_succ]
    cases hd : digit? c with
    | some d =>
      simp only [hd] at h
      have bound := ih h
      have digit := digit?_lt hd
      calc n < (value * 16 + d + 1) * 16 ^ cs.length := bound
        _ ≤ ((value + 1) * 16) * 16 ^ cs.length := Nat.mul_le_mul_right _ (by omega)
        _ = (value + 1) * (16 ^ cs.length * 16) := by rw [Nat.mul_assoc, Nat.mul_comm 16]
    | none =>
      simp only [hd] at h
      have wider : (value + 1) * 16 ^ cs.length ≤ (value + 1) * (16 ^ cs.length * 16) :=
        Nat.mul_le_mul_left _ (Nat.le_mul_of_pos_right _ (by omega))
      split_ifs at h
      · exact Nat.lt_of_lt_of_le (ih h) wider
      · cases h
        have positive : 0 < 16 ^ cs.length * 16 := Nat.mul_pos (Nat.pow_pos (by omega)) (by omega)
        exact Nat.lt_of_lt_of_le (Nat.lt_succ_self _) (Nat.le_mul_of_pos_right _ positive)

theorem dropPrefix_length (s : List Char) : (dropPrefix s).length ≤ s.length := by
  unfold dropPrefix
  split <;> simp <;> omega

theorem unsigned_lt {s rest : List Char} {n : Nat} (h : unsigned s = some (n,rest)) :
    n < 16 ^ s.length := by
  have short := dropPrefix_length s
  unfold unsigned at h
  split at h
  · cases h
  · next c cs hs =>
    split_ifs at h
    have bound := scanDigits_lt h
    rw [hs] at short
    calc n < (0 + 1) * 16 ^ (c :: cs).length := bound
      _ = 16 ^ (c :: cs).length := by rw [Nat.zero_add, Nat.one_mul]
      _ ≤ 16 ^ s.length := Nat.pow_le_pow_right (by omega) short

/-- The sign takes a place from the digits. -/
theorem int16_bounds {s : List Char} {v : Int} (h : int16 s = some v) :
    -(16 ^ (s.length - 1) : Nat) < v ∧ v < (16 ^ s.length : Nat) := by
  have short : ((s.map toAscii).dropWhile isSpace).length ≤ s.length := by
    have all : (s.map toAscii).length = s.length := List.length_map toAscii
    rw [← all]
    exact (List.dropWhile_sublist isSpace).length_le
  have signed {cs : List Char} {n : Nat} (hl : cs.length + 1 ≤ s.length)
      (hn : n < 16 ^ cs.length) : n < 16 ^ (s.length - 1) ∧ n < 16 ^ s.length :=
    ⟨Nat.lt_of_lt_of_le hn (Nat.pow_le_pow_right (by omega) (by omega)),
      Nat.lt_of_lt_of_le hn (Nat.pow_le_pow_right (by omega) (by omega))⟩
  have positive (k : Nat) : 0 < 16 ^ k := Nat.pow_pos (by omega)
  unfold int16 at h
  split at h
  · next cs hs =>
    rw [hs] at short
    split at h
    · next n rest hu =>
      split_ifs at h
      cases h
      have bounds := signed short (unsigned_lt hu)
      have more := positive s.length
      omega
    · cases h
  · next cs hs =>
    rw [hs] at short
    split at h
    · next n rest hu =>
      split_ifs at h
      cases h
      have bounds := signed short (unsigned_lt hu)
      have more := positive (s.length - 1)
      omega
    · cases h
  · split at h
    · next n rest hu =>
      split_ifs at h
      cases h
      have bound := Nat.lt_of_lt_of_le (unsigned_lt hu) (Nat.pow_le_pow_right (by omega) short)
      have more := positive (s.length - 1)
      omega
    · cases h

/-- A hexadecimal digit is no space, no sign and no part of a prefix. -/
theorem digit?_spec {c : Char} {d : Nat} (h : digit? c = some d) :
    toAscii c = c ∧ isSpace c = false ∧ c ≠ '-' ∧ c ≠ '+' ∧ c ≠ 'x' ∧ c ≠ 'X' := by
  have upper {x y : Char} (hxy : x ≤ y) : x.toNat ≤ y.toNat := hxy
  have range : c.toNat ≤ 57 ∧ 48 ≤ c.toNat ∨ c.toNat ≤ 102 ∧ 97 ≤ c.toNat ∨
      c.toNat ≤ 70 ∧ 65 ≤ c.toNat := by
    unfold digit? at h
    split_ifs at h with h₁ h₂ h₃
    · exact Or.inl ⟨upper h₁.2,upper h₁.1⟩
    · exact Or.inr (Or.inl ⟨upper h₂.2,upper h₂.1⟩)
    · exact Or.inr (Or.inr ⟨upper h₃.2,upper h₃.1⟩)
  have ne {x : Char} (hx : c.toNat ≠ x.toNat) : c ≠ x := fun same => hx (congrArg Char.toNat same)
  have ascii : c.toNat < 127 := by omega
  refine ⟨if_pos ascii,?_,?_,?_,?_,?_⟩
  · simp only [isSpace, Bool.or_eq_false_iff, decide_eq_false_iff_not]
    refine ⟨ne ?_,?_⟩
    · change c.toNat ≠ 32
      omega
    · simp only [Bool.and_eq_false_iff, decide_eq_false_iff_not]
      omega
  · apply ne
    change c.toNat ≠ 45
    omega
  · apply ne
    change c.toNat ≠ 43
    omega
  · apply ne
    change c.toNat ≠ 120
    omega
  · apply ne
    change c.toNat ≠ 88
    omega

theorem int16_pair {c d : Char} {a b : Nat} (hc : digit? c = some a) (hd : digit? d = some b) :
    int16 [c,d] = some ((a * 16 + b : Nat) : Int) := by
  obtain ⟨asciiC, spaceC, minus, plus, _, _⟩ := digit?_spec hc
  obtain ⟨asciiD, _, _, _, small, large⟩ := digit?_spec hd
  have dropped : dropPrefix [c,d] = [c,d] := by
    unfold dropPrefix
    split <;> simp_all
  have scanned : unsigned [c,d] = some (a * 16 + b,[]) := by
    simp [unsigned, dropped, hc, hd, scanDigits]
  have cleaned : ([c,d].map toAscii).dropWhile isSpace = [c,d] := by
    simp [asciiC, asciiD, spaceC]
  unfold int16
  rw [cleaned]
  split
  · next cs same => exact absurd (List.cons.inj same).1 minus
  · next cs same => exact absurd (List.cons.inj same).1 plus
  · simp [scanned]

end Framework.PyInt
