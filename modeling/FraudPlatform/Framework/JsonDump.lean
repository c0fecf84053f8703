import FraudPlatform.Framework.Dict
import FraudPlatform.Framework.JsonScan

namespace Framework.JsonDump

open Ieee JsonScan

def hexDigits (u : Nat) : List Char :=
  [Nat.digitChar (u / 4096 % 16),Nat.digitChar (u / 256 % 16),Nat.digitChar (u / 16 % 16),
    Nat.digitChar (u % 16)]

/-- The UTF-16 code units of a character. -/
def utf16 (c : Char) : List Nat :=
  if c.toNat < 0x10000 then [c.toNat]
  else [0xd800 + (c.toNat - 0x10000) / 0x400,0xdc00 + (c.toNat - 0x10000) % 0x400]

/-- The letter of an escape of two characters. -/
def letter (c : Char) : Option Char :=
  if c = '"' ∨ c = '\\' then some c
  else if c.toNat = 8 then some 'b'
  else if c.toNat = 12 then some 'f'
  else if c.toNat = 10 then some 'n'
  else if c.toNat = 13 then some 'r'
  else if c.toNat = 9 then some 't'
  else none

def escape (c : Char) : List Char :=
  match letter c with
  | some e => ['\\',e]
  | none =>
    if ' ' ≤ c ∧ c ≤ '~' then [c]
    else (utf16 c).flatMap fun u => '\\' :: 'u' :: hexDigits u

/-- `json.dumps` of a string, in ASCII. -/
def string (s : String) : List Char := '"' :: (s.toList.flatMap escape ++ ['"'])

/-- `int.__repr__` -/
def int (n : Int) : List Char :=
  if n < 0 then '-' :: Nat.toDigits 10 n.natAbs else Nat.toDigits 10 n.natAbs

/-- Items with a comma and a space between them. -/
def separated : List (List Char) → List Char
  | [] => []
  | text :: texts => text ++ texts.flatMap fun next => ',' :: ' ' :: next

def dictItem (key : String) (text : List Char) : List Char := string key ++ (':' :: ' ' :: text)

/-- `json.dumps` of a dict whose values have these texts. -/
def dict (members : List (String × List Char)) : List Char :=
  '{' :: (separated (members.map fun m => dictItem m.1 m.2) ++ ['}'])

theorem digit?_digitChar : ∀ d < 16, PyInt.digit? (Nat.digitChar d) = some d := by decide

theorem hex4_hexDigits {u : Nat} (hu : u < 0x10000) :
    hex4 (Nat.digitChar (u / 4096 % 16)) (Nat.digitChar (u / 256 % 16))
      (Nat.digitChar (u / 16 % 16)) (Nat.digitChar (u % 16)) = some u := by
  have digit (n : Nat) : PyInt.digit? (Nat.digitChar (n % 16)) = some (n % 16) :=
    digit?_digitChar _ (Nat.mod_lt n (by decide))
  simp only [hex4, digit, Option.bind_eq_bind, Option.bind_some, Option.some.injEq]
  omega

theorem utf16_lt {c : Char} {u : Nat} (hu : u ∈ utf16 c) : u < 0x10000 := by
  have bound : c.toNat < 0x110000 := by
    rcases c.valid with low | high
    · exact Nat.lt_trans low (by decide)
    · exact high.2
  unfold utf16 at hu
  split_ifs at hu <;> simp only [List.mem_cons, List.not_mem_nil, or_false] at hu <;> omega

/-- One escape of a code unit is read back as the unit. -/
theorem units_unicode {u : Nat} (hu : u < 0x10000) (rest : List Char) :
    units ('\\' :: 'u' :: (hexDigits u ++ rest)) = (units rest).map fun r => (u :: r.1,r.2) := by
  simp only [hexDigits, List.cons_append, List.nil_append]
  rw [units.eq_def]
  simp only [hex4_hexDigits hu]
  cases units rest <;> rfl

theorem units_unicodes {us : List Nat} (h : ∀ u ∈ us, u < 0x10000) (rest : List Char) :
    units ((us.flatMap fun u => '\\' :: 'u' :: hexDigits u) ++ rest) =
      (units rest).map fun r => (us ++ r.1,r.2) := by
  induction us with
  | nil => simp
  | cons u us ih =>
    rw [List.flatMap_cons, List.append_assoc, List.cons_append, List.cons_append,
      units_unicode (h u List.mem_cons_self), ih fun v hv => h v (List.mem_cons_of_mem u hv),
      Option.map_map]
    rfl

theorem unescaped_letter {c e : Char} (h : letter c = some e) :
    unescaped e = some c.toNat ∧ e ≠ 'u' ∧ c.toNat < 0x10000 := by
  unfold letter at h
  split_ifs at h with self
  · cases h
    rcases self with rfl | rfl <;> decide
  all_goals
    cases h
    simp only [*]
    decide

theorem units_escape (c : Char) (rest : List Char) :
    units (escape c ++ rest) = (units rest).map fun r => (utf16 c ++ r.1,r.2) := by
  cases h : letter c with
  | some e =>
    obtain ⟨read, ne, small⟩ := unescaped_letter h
    have escaped : escape c ++ rest = '\\' :: e :: rest := by simp only [escape, h]; rfl
    rw [escaped, units.eq_def]
    simp only [read, ne, utf16, small, if_true, if_false]
    cases units rest <;> rfl
  | none =>
    by_cases plain : ' ' ≤ c ∧ c ≤ '~'
    · have escaped : escape c ++ rest = c :: rest := by simp only [escape, h, if_pos plain]; rfl
      have least : 32 ≤ c.toNat := plain.1
      have most : c.toNat ≤ 126 := plain.2
      have other : c ≠ '"' ∧ c ≠ '\\' := by
        unfold letter at h
        split_ifs at h with self
        exact not_or.mp self
      rw [escaped, units.eq_def]
      simp only [other, utf16, if_false, show ¬c.toNat < 32 by omega,
        show c.toNat < 0x10000 by omega, if_true]
      cases units rest <;> rfl
    · have escaped : escape c = (utf16 c).flatMap fun u => '\\' :: 'u' :: hexDigits u := by
        simp only [escape, h, if_neg plain]
      rw [escaped]
      exact units_unicodes (fun u hu => utf16_lt hu) rest

theorem units_string (s rest : List Char) :
    units (s.flatMap escape ++ ('"' :: rest)) = some (s.flatMap utf16,rest) := by
  induction s with
  | nil =>
    rw [List.flatMap_nil, List.nil_append, units.eq_def]
    rfl
  | cons c s ih =>
    rw [List.flatMap_cons, List.append_assoc, units_escape, ih]
    rfl

theorem joinUnits_utf16 (c : Char) (us : List Nat) :
    joinUnits (utf16 c ++ us) = c :: joinUnits us := by
  unfold utf16
  split_ifs with small
  · have whole : isHigh c.toNat = false ∧ isLow c.toNat = false := by
      simp only [isHigh, isLow, Bool.and_eq_false_iff, decide_eq_false_iff_not]
      rcases c.valid with low | high
      · have below : c.toNat < 0xd800 := low
        omega
      · have above : 0xdfff < c.toNat := high.1
        omega
    rw [List.cons_append, List.nil_append, joinUnits.eq_def]
    simp only [whole, Bool.false_eq_true, if_false, Char.ofNat_toNat]
  · have bound : c.toNat < 0x110000 := by
      rcases c.valid with low | high
      · exact Nat.lt_trans low (by decide)
      · exact high.2
    have high : isHigh (0xd800 + (c.toNat - 0x10000) / 0x400) = true := by
      simp only [isHigh, Bool.and_eq_true, decide_eq_true_eq]
      omega
    have low : isLow (0xdc00 + (c.toNat - 0x10000) % 0x400) = true := by
      simp only [isLow, Bool.and_eq_true, decide_eq_true_eq]
      omega
    have joined : 0x10000 + (0xd800 + (c.toNat - 0x10000) / 0x400 - 0xd800) * 0x400 +
        (0xdc00 + (c.toNat - 0x10000) % 0x400 - 0xdc00) = c.toNat := by omega
    rw [List.cons_append, List.cons_append, List.nil_append, joinUnits.eq_def]
    simp only [high, low, if_true, joined, Char.ofNat_toNat]

theorem joinUnits_string (s : List Char) : joinUnits (s.flatMap utf16) = s := by
  induction s with
  | nil => rfl
  | cons c s ih => rw [List.flatMap_cons, joinUnits_utf16, ih]

/-- A written string is read back, whatever characters it has. -/
theorem string_string (s : String) (rest : List Char) :
    JsonScan.string (string s ++ rest) = some (s,rest) := by
  rw [string, List.cons_append, List.append_assoc, List.cons_append, List.nil_append,
    JsonScan.string, if_pos rfl, units_string, Option.map_some, joinUnits_string,
    String.ofList_toList]

theorem toDigits_zero_first {n : Nat} {cs : List Char} (h : Nat.toDigits 10 n = '0' :: cs) :
    cs = [] := by
  induction n using Nat.strongRecOn generalizing cs with
  | ind n ih =>
    rcases Nat.lt_or_ge n 10 with small | large
    · rw [Nat.toDigits_of_lt_base small] at h
      exact (List.cons.inj h).2.symm
    · rw [Nat.toDigits_of_base_le (by decide) large] at h
      cases hd : Nat.toDigits 10 (n / 10) with
      | nil => exact absurd hd Nat.toDigits_ne_nil
      | cons d ds =>
        rw [hd, List.cons_append] at h
        have head : d = '0' := (List.cons.inj h).1
        have none := ih (n / 10) (by omega) (head ▸ hd)
        have zero : n / 10 = 0 := by
          have value := Nat.ofDigitChars_ten_toDigits (n := n / 10)
          rw [hd, head, none] at value
          exact value.symm
        omega

theorem digits_toDigits (n : Nat) : digits (Nat.toDigits 10 n) = some (Nat.toDigits 10 n,[]) := by
  have all {c : Char} (hc : c ∈ Nat.toDigits 10 n) : c.isDigit :=
    Nat.isDigit_of_mem_toDigits (by decide) (by decide) hc
  have run : (Nat.toDigits 10 n).takeWhile Char.isDigit = Nat.toDigits 10 n :=
    List.takeWhile_eq_self_iff.mpr fun c hc => all hc
  have left : (Nat.toDigits 10 n).dropWhile Char.isDigit = [] :=
    List.dropWhile_eq_nil_iff.mpr fun c hc => all hc
  rw [digits, run, left, if_neg Nat.toDigits_ne_nil]

theorem whole_toDigits (n : Nat) : whole (Nat.toDigits 10 n) = some (Nat.toDigits 10 n,[]) := by
  have read := digits_toDigits n
  cases hd : Nat.toDigits 10 n with
  | nil => exact absurd hd Nat.toDigits_ne_nil
  | cons c cs =>
    rw [hd] at read
    rw [whole]
    split_ifs with zero
    · rw [zero] at hd ⊢
      rw [toDigits_zero_first hd]
    · exact read

/-- The digits of a natural number are read whole. -/
theorem number_sign {cs : List Char} {negative : Bool} {n : Nat}
    (h : sign cs = some (negative,Nat.toDigits 10 n)) : number cs = some ((negative,(n : ℚ)),[]) := by
  simp only [number, h, whole_toDigits, fraction, exponent, Option.bind_eq_bind, Option.bind_some,
    List.append_nil, Nat.ofDigitChars_ten_toDigits, List.length_nil, Nat.cast_zero, sub_zero,
    zpow_zero, mul_one]

theorem number_int (n : Int) : number (int n) = some ((decide (n < 0),(n.natAbs : ℚ)),[]) := by
  unfold int
  split_ifs with negative
  · rw [decide_eq_true negative]
    exact number_sign rfl
  · rw [decide_eq_false negative]
    apply number_sign
    have digit {c : Char} (hc : c ∈ Nat.toDigits 10 n.natAbs) : c ≠ '-' := by
      rintro rfl
      exact absurd (Nat.isDigit_of_mem_toDigits (by decide) (by decide) hc) (by decide)
    cases hd : Nat.toDigits 10 n.natAbs with
    | nil => exact absurd hd Nat.toDigits_ne_nil
    | cons c cs =>
      rw [hd] at digit
      rw [sign, if_neg (digit List.mem_cons_self)]

/-- Text with no white space in front. -/
def Solid (text : List Char) : Prop := ∃ c ∈ text.head?, isSpace c = false

theorem Solid.skip_append {text : List Char} (h : Solid text) (rest : List Char) :
    skip (text ++ rest) = text ++ rest := by
  obtain ⟨c, hc, solid⟩ := h
  cases text with
  | nil => cases hc
  | cons d text =>
    cases hc
    simp [skip, solid]

theorem Solid.length_pos {text : List Char} (h : Solid text) : 0 < text.length := by
  obtain ⟨c, hc, _⟩ := h
  cases text with
  | nil => cases hc
  | cons d text => exact Nat.succ_pos _

theorem length_lt_separated (text : List Char) (h : Solid text) (texts : List (List Char)) :
    texts.length < (separated (text :: texts)).length := by
  have tail : texts.length ≤ (texts.flatMap fun next => ',' :: ' ' :: next).length := by
    induction texts with
    | nil => exact Nat.le_refl _
    | cons next texts ih =>
      rw [List.flatMap_cons, List.length_append, List.length_cons, List.length_cons,
        List.length_cons]
      omega
  have first := h.length_pos
  rw [separated, List.length_append]
  omega

section Items

variable {α β : Type} {item : Scanner β} {close : Char} {write : α → List Char}
  {read : α → Option β}

/-- An item is read back before a comma and before the end. -/
def ReadBack (item : Scanner β) (close : Char) (write : α → List Char) (read : α → Option β)
    (x : α) : Prop :=
  Solid (write x) ∧ ∀ c ∈ [',',close], ∀ rest,
    item (write x ++ (c :: rest)) = (read x).map fun y => (y,c :: rest)

/-- Where every item is read back the list is; an item that is not read fails the rest. -/
theorem items_separated (ends : isSpace close = false) (comma : ',' ≠ close) {x : α} {xs : List α}
    (h : ∀ y ∈ x :: xs, ReadBack item close write read y) {fuel : Nat} (enough : xs.length < fuel)
    {cs rest : List Char} (hcs : skip cs = separated ((x :: xs).map write) ++ (close :: rest)) :
    items item close fuel cs = ((x :: xs).mapM read).map fun ys => (ys,rest) := by
  induction xs generalizing x fuel cs with
  | nil =>
    obtain ⟨fuel, rfl⟩ := Nat.exists_eq_add_of_lt enough
    have last := (h x List.mem_cons_self).2 close (by simp) rest
    rw [List.map_singleton, separated, List.flatMap_nil, List.append_nil] at hcs
    rw [items, hcs, last]
    cases hx : read x with
    | none => simp [hx]
    | some y => simp [hx, skip, ends]
  | cons next xs ih =>
    obtain ⟨fuel, rfl⟩ := Nat.exists_eq_add_of_lt (Nat.zero_lt_of_lt enough)
    have head := h x List.mem_cons_self
    have tail : ∀ y ∈ next :: xs, ReadBack item close write read y :=
      fun y hy => h y (List.mem_cons_of_mem x hy)
    have split : separated ((x :: next :: xs).map write) ++ (close :: rest) =
        write x ++ (',' :: ' ' :: (separated ((next :: xs).map write) ++ (close :: rest))) := by
      simp [separated]
    have space : skip (' ' :: (separated ((next :: xs).map write) ++ (close :: rest))) =
        separated ((next :: xs).map write) ++ (close :: rest) := by
      have solid := (tail next List.mem_cons_self).1.skip_append
        ((xs.map write).flatMap (fun t => ',' :: ' ' :: t) ++ (close :: rest))
      rw [List.map_cons, separated, List.append_assoc]
      exact solid
    have here := head.2 ',' (by simp) (' ' :: (separated ((next :: xs).map write) ++ (close :: rest)))
    have left : xs.length < fuel := by
      rw [List.length_cons] at enough
      omega
    have later := ih tail left space
    rw [Nat.zero_add, items, hcs, split, here]
    rw [List.mapM_cons]
    cases hx : read x with
    | none => rfl
    | some y =>
      have unread : skip (',' :: ' ' :: (separated ((next :: xs).map write) ++ (close :: rest))) =
          ',' :: ' ' :: (separated ((next :: xs).map write) ++ (close :: rest)) := rfl
      simp only [Option.map_some, Option.bind_eq_bind, Option.bind_some, unread, if_neg comma,
        if_true, later]
      cases (next :: xs).mapM read <;> rfl

/-- The same behind the opening bracket, where there may be no item. -/
theorem enclosed_separated (ends : isSpace close = false) (comma : ',' ≠ close) {xs : List α}
    (h : ∀ x ∈ xs, ReadBack item close write read x)
    (fresh : ∀ x ∈ xs, (write x).head? ≠ some close) (rest : List Char) :
    enclosed item close (separated (xs.map write) ++ (close :: rest)) =
      (xs.mapM read).map fun ys => (ys,rest) := by
  cases xs with
  | nil =>
    have none : skip (close :: rest) = close :: rest := by simp [skip, ends]
    rw [List.map_nil, separated, List.nil_append, enclosed, none]
    exact if_pos rfl
  | cons x xs =>
    have solid := (h x List.mem_cons_self).1
    have unread : skip (separated ((x :: xs).map write) ++ (close :: rest)) =
        separated ((x :: xs).map write) ++ (close :: rest) := by
      rw [List.map_cons, separated, List.append_assoc]
      exact solid.skip_append _
    have enough := length_lt_separated (write x) solid (xs.map write)
    have other := fresh x List.mem_cons_self
    rw [enclosed, unread]
    cases hcs : separated ((x :: xs).map write) ++ (close :: rest) with
    | nil => simp at hcs
    | cons c cs =>
      have first : c ≠ close := by
        rintro rfl
        cases hx : write x with
        | nil => exact absurd solid.length_pos (by rw [hx]; exact Nat.lt_irrefl 0)
        | cons d ds =>
          rw [hx] at other
          rw [List.map_cons, separated, hx] at hcs
          exact other (congrArg some (List.cons.inj hcs).1)
      have long : xs.length < (c :: cs).length := by
        rw [← hcs, List.length_append, List.map_cons]
        rw [List.length_map] at enough
        omega
      simp only [if_neg first]
      exact items_separated ends comma h long (by rw [← hcs]; exact unread)

end Items

theorem solid_dictItem (key : String) (text : List Char) : Solid (dictItem key text) :=
  ⟨'"',rfl,rfl⟩

theorem member_dictItem {value : Scanner Value} {key : String} {text rest : List Char}
    (solid : Solid text) :
    member value (dictItem key text ++ rest) =
      (value (text ++ rest)).map fun r => ((key,r.1),r.2) := by
  have colon : skip (':' :: ' ' :: (text ++ rest)) = ':' :: ' ' :: (text ++ rest) := rfl
  have space : skip (' ' :: (text ++ rest)) = text ++ rest := solid.skip_append rest
  rw [dictItem, List.append_assoc, List.cons_append, List.cons_append, member, string_string]
  simp only [Option.bind_eq_bind, Option.bind_some, colon, if_true, space]
  cases value (text ++ rest) <;> rfl

/-- A written dict is read back as its members where every value is read back. -/
theorem value_dict {α : Type} {depth : Nat} {write : α → List Char} {read : α → Option Value}
    {members : List (String × α)}
    (h : ∀ m ∈ members, ReadBack (value depth) '}' write read m.2) (rest : List Char) :
    value (depth + 1) (dict (Dict.mapValues write members) ++ rest) =
      (Dict.mapValues? read members).map fun ms => (.object ms,rest) := by
  have bracket : value (depth + 1) (dict (Dict.mapValues write members) ++ rest) =
      (enclosed (member (value depth)) '}'
        (separated (members.map fun m => dictItem m.1 (write m.2)) ++ ('}' :: rest))).map
          fun r => (.object r.1,r.2) := by
    rw [dict, List.cons_append, List.append_assoc, Dict.mapValues, List.map_map, value.eq_def]
    rfl
  have back : ∀ m ∈ members, ReadBack (member (value depth)) '}'
      (fun n => dictItem n.1 (write n.2)) (fun n => (read n.2).map fun x => (n.1,x)) m := by
    intro m hm
    refine ⟨solid_dictItem m.1 (write m.2),?_⟩
    intro c hc rest
    obtain ⟨solid, one⟩ := h m hm
    simp only [member_dictItem solid, one c hc rest]
    cases read m.2 <;> rfl
  rw [bracket, enclosed_separated rfl (by decide) back (fun m _ => by simp [dictItem, string]) rest,
    Option.map_map]
  rfl

/-- A value of a flat dict. -/
inductive Scalar
  | none
  | int (n : Int)
  | float (x : Datum)
  deriving DecidableEq, Repr

/-- `json.dumps` of a scalar; `repr` is `float.__repr__` of the finite floats. -/
def scalar (repr : Datum → List Char) : Scalar → List Char
  | .none => "null".toList
  | .int n => int n
  | .float .nan => "NaN".toList
  | .float (.infinite negative) => if negative then "-Infinity".toList else "Infinity".toList
  | .float x => repr x

/-- The text is one number and names this very double. -/
def Exact (repr : Datum → List Char) (x : Datum) : Prop :=
  ∃ literal, number (repr x) = some (literal,[]) ∧ toDouble literal = some x

/-- What a JSON reader makes of a written scalar. -/
def received : Scalar → Option Value
  | .none => some .null
  | .int n => (toDouble (decide (n < 0),(n.natAbs : ℚ))).map .number
  | .float (.finite negative magnitude) => some (.number (.finite negative magnitude))
  | .float _ => none

theorem ends_of_mem {c : Char} (hc : c ∈ [',','}']) (rest : List Char) : Ends (c :: rest) := by
  rw [List.mem_pair] at hc
  rcases hc with rfl | rfl
  · exact ends_cons (by decide)
  · exact ends_cons (by decide)

theorem readBack_number {α : Type} {depth : Nat} {write : α → List Char} {read : α → Option Value}
    {x : α} {literal : Bool × ℚ} (written : number (write x) = some (literal,[]))
    (h : read x = (toDouble literal).map .number) :
    ReadBack (value depth) '}' write read x := by
  constructor
  · cases hx : write x with
    | nil =>
      rw [hx] at written
      cases written
    | cons c cs =>
      rw [hx] at written
      refine ⟨c,rfl,?_⟩
      rcases head_of_number (by rw [written]; exact Option.some_ne_none _) with rfl | digit
      · rfl
      · rw [← Bool.not_eq_true]
        intro space
        simp only [isSpace, Bool.or_eq_true, decide_eq_true_eq] at space
        rcases space with ((rfl | rfl) | rfl) | rfl <;> exact absurd digit (by decide)
  · intro c hc rest
    have extended := extends_number written (ends_of_mem hc rest)
    rw [value_of_number (by rw [extended]; exact Option.some_ne_none _), extended, h,
      Option.bind_some]
    cases toDouble literal <;> rfl

/-- Every scalar is read back as a JSON reader receives it; it receives no infinity and no NaN. -/
theorem readBack_scalar {depth : Nat} {repr : Datum → List Char} {x : Scalar}
    (decimals : ∀ negative magnitude, x = .float (.finite negative magnitude) →
      Exact repr (.finite negative magnitude)) :
    ReadBack (value depth) '}' (scalar repr) received x := by
  cases x with
  | none => exact ⟨⟨'n',rfl,rfl⟩,fun c _ rest => value_null⟩
  | int n => exact readBack_number (number_int n) rfl
  | float x =>
    cases x with
    | nan =>
      refine ⟨⟨'N',rfl,rfl⟩,?_⟩
      intro c _ rest
      exact value_cons (c := 'N') (by decide)
    | infinite negative =>
      cases negative with
      | false => exact ⟨⟨'I',rfl,rfl⟩,fun c _ rest => value_cons (c := 'I') (by decide)⟩
      | true => exact ⟨⟨'-',rfl,rfl⟩,fun c _ rest => value_cons (c := '-') (by decide)⟩
    | finite negative magnitude =>
      obtain ⟨literal, written, double⟩ := decimals negative magnitude rfl
      exact readBack_number written (by rw [double]; rfl)

end Framework.JsonDump
