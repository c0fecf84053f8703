import FraudPlatform.Framework.JsonScan

namespace Framework.JsonStruct

open JsonScan

/-- A value as the decoder of a struct meets it: a number by its text, brackets unread. -/
inductive Token
  | null
  | bool (b : Bool)
  | number (text : List Char)
  | string (s : String)
  | array
  | object
  deriving DecidableEq, Repr

/-- The text a scanner takes off the front. -/
def consumed {α : Type} (scan : Scanner α) : Scanner (List Char) := fun cs =>
  (scan cs).map fun r => (cs.take (cs.length - r.2.length),r.2)

/-- A value inside at most so many brackets; a literal beyond all doubles is still one. -/
def token : Nat → Scanner Token
  | _, [] => none
  | depth, c :: cs =>
    if c = '\x7b' then
      match depth with
      | 0 => none
      | depth + 1 =>
        (enclosed (member fun cs => token depth cs) '\x7d' cs).map fun r => (.object,r.2)
    else if c = '[' then
      match depth with
      | 0 => none
      | depth + 1 => (enclosed (fun cs => token depth cs) ']' cs).map fun r => (.array,r.2)
    else if c = '"' then (string (c :: cs)).map fun r => (.string r.1,r.2)
    else if "null".toList <+: c :: cs then some (.null,cs.drop 3)
    else if "true".toList <+: c :: cs then some (.bool true,cs.drop 3)
    else if "false".toList <+: c :: cs then some (.bool false,cs.drop 4)
    else (consumed number (c :: cs)).map fun r => (.number r.1,r.2)

/-- The first value of a stream, if it is an object; `null` leaves a struct as it is. -/
def members (cs : List Char) : Option (List (String × Token)) :=
  match skip cs with
  | [] => none
  | c :: cs =>
    if c = '\x7b' then (enclosed (member (token 9999)) '\x7d' cs).map Prod.fst
    else if "null".toList <+: c :: cs then some []
    else none

/-- The folding under which a key that is not a field's name may still mean it. -/
def foldRune (c : Char) : Char :=
  if 'a' ≤ c ∧ c ≤ 'z' then Char.ofNat (c.toNat - 32)
  else if c.toNat = 0x17f then 'S'
  else if c.toNat = 0x212a then 'K'
  else c

def isField (name key : String) : Bool :=
  key = name || key.toList.map foldRune = name.toList.map foldRune

/-- `strconv.ParseInt(s, 10, 64)` of a number literal -/
def parseInt64 (text : List Char) : Option Int :=
  let negative := text.head? = some '-'
  let ds := if negative then text.drop 1 else text
  let magnitude : Int := Nat.ofDigitChars 10 ds 0
  let n := if negative then -magnitude else magnitude
  if ds ≠ [] ∧ ds.all Char.isDigit ∧ -2 ^ 63 ≤ n ∧ n < 2 ^ 63 then some n else none

/-- One member met by a struct with a single `int64` field. -/
def setInt64 (name : String) (value : Int) : String × Token → Option Int
  | (key, token) =>
    if isField name key then
      match token with
      | .null => some value
      | .number text => parseInt64 text
      | _ => none
    else some value

/-- `Decoder.Decode` into a struct with a single `int64` field: the last member counts, an error
anywhere fails it, and what follows the first value is not read. -/
def decodeInt64 (name : String) (cs : List Char) : Option Int := do
  (← members cs).foldlM (setInt64 name) 0

/-- `http.MaxBytesReader` and `io.LimitReader`: the text as far as the limit reaches. It is read as
ended there, where `MaxBytesReader` gives an error: the two differ for a value that only the next
byte ends, `null` at the very limit. A character that the limit cuts is left out whole, where Go
keeps its first bytes. -/
def maxBytes : Nat → List Char → List Char
  | _, [] => []
  | limit, c :: cs => if c.utf8Size ≤ limit then c :: maxBytes (limit - c.utf8Size) cs else []

example : decodeInt64 "transaction_id"
    "\x7b\"a\": [1e999], \"Transaction_ID\": -42\x7d trailing".toList = some (-42) := by
  decide +kernel

end Framework.JsonStruct
