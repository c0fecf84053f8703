import Mathlib.Data.List.Basic

namespace Framework.Md5

/-- Words are natural numbers below this. -/
def modulus : Nat := 0x100000000

def leftRotate (x n : Nat) : Nat := (x <<< n ||| x >>> (32 - n)) % modulus

def sines : List Nat :=
  [0xd76aa478,0xe8c7b756,0x242070db,0xc1bdceee,0xf57c0faf,0x4787c62a,0xa8304613,0xfd469501,
    0x698098d8,0x8b44f7af,0xffff5bb1,0x895cd7be,0x6b901122,0xfd987193,0xa679438e,0x49b40821,
    0xf61e2562,0xc040b340,0x265e5a51,0xe9b6c7aa,0xd62f105d,0x02441453,0xd8a1e681,0xe7d3fbc8,
    0x21e1cde6,0xc33707d6,0xf4d50d87,0x455a14ed,0xa9e3e905,0xfcefa3f8,0x676f02d9,0x8d2a4c8a,
    0xfffa3942,0x8771f681,0x6d9d6122,0xfde5380c,0xa4beea44,0x4bdecfa9,0xf6bb4b60,0xbebfbc70,
    0x289b7ec6,0xeaa127fa,0xd4ef3085,0x04881d05,0xd9d4d039,0xe6db99e5,0x1fa27cf8,0xc4ac5665,
    0xf4292244,0x432aff97,0xab9423a7,0xfc93a039,0x655b59c3,0x8f0ccc92,0xffeff47d,0x85845dd1,
    0x6fa87e4f,0xfe2ce6e0,0xa3014314,0x4e0811a1,0xf7537e82,0xbd3af235,0x2ad7d2bb,0xeb86d391]

def shifts : List Nat := [7,12,17,22,5,9,14,20,4,11,16,23,6,10,15,21]

structure State where
  a : Nat
  b : Nat
  c : Nat
  d : Nat

def State.init : State := ⟨0x67452301,0xefcdab89,0x98badcfe,0x10325476⟩

def complement (x : Nat) : Nat := modulus - 1 - x

/-- The step `i` of 64: the mixing function of its round, and the word it takes. -/
def mix (s : State) (i : Nat) : Nat × Nat :=
  match i / 16 with
  | 0 => (s.b &&& s.c ||| complement s.b &&& s.d,i)
  | 1 => (s.d &&& s.b ||| complement s.d &&& s.c,(5 * i + 1) % 16)
  | 2 => (s.b ^^^ s.c ^^^ s.d,(3 * i + 5) % 16)
  | _ => (s.c ^^^ (s.b ||| complement s.d),7 * i % 16)

def State.step (words : List Nat) (s : State) (i : Nat) : State :=
  let (f, g) := mix s i
  let sum := (f + s.a + sines.getD i 0 + words.getD g 0) % modulus
  ⟨s.d,(s.b + leftRotate sum (shifts.getD (i / 16 * 4 + i % 4) 0)) % modulus,s.b,s.c⟩

def State.add (s t : State) : State :=
  ⟨(s.a + t.a) % modulus,(s.b + t.b) % modulus,(s.c + t.c) % modulus,(s.d + t.d) % modulus⟩

def State.block (s : State) (words : List Nat) : State :=
  s.add ((List.range 64).foldl (State.step words) s)

/-- The bytes of a word, the lowest first. -/
def bytes (count n : Nat) : List Nat := (List.range count).map fun i => n >>> (8 * i) % 256

def words (block : List Nat) : List Nat :=
  (List.range 16).map fun i =>
    (List.range 4).foldr (fun j value => value * 256 + block.getD (4 * i + j) 0) 0

/-- The message, a one bit, zeros up to 56 bytes of the last block, the length in bits. -/
def padded (message : List Nat) : List Nat :=
  message ++ 128 :: List.replicate ((119 - message.length % 64) % 64) 0 ++
    bytes 8 (8 * message.length)

def digest (message : List Nat) : List Nat :=
  let all := padded message
  let s := (List.range (all.length / 64)).foldl
    (fun s i => s.block (words ((all.drop (64 * i)).take 64))) State.init
  [s.a,s.b,s.c,s.d].flatMap (bytes 4)

def hexDigit (n : Nat) : Char := Char.ofNat (if n < 10 then 48 + n else 87 + n)

/-- `s.encode()` -/
def encode (s : String) : List Nat :=
  s.toList.flatMap fun c => (String.utf8EncodeChar c).map UInt8.toNat

/-- `hashlib.md5(s.encode()).hexdigest()`, as characters. -/
def hexdigest (s : String) : List Char :=
  (digest (encode s)).flatMap fun b => [hexDigit (b / 16),hexDigit (b % 16)]

example : String.ofList (hexdigest "abc") = "900150983cd24fb0d6963f7d28e17f72" := by decide +kernel

/-- `str(uuid.UUID(hex))` -/
def uuid (hex : List Char) : String :=
  String.ofList (hex.take 8 ++ '-' :: (hex.drop 8).take 4 ++ '-' :: (hex.drop 12).take 4 ++
    '-' :: (hex.drop 16).take 4 ++ '-' :: hex.drop 20)

end Framework.Md5
