import FraudPlatform.Framework.JsonDump
import FraudPlatform.Framework.JsonStream

namespace Framework.JsonWire

open Ieee JsonScan JsonStruct JsonDump

/-- A character inside a string of Go's encoder: what HTML might take for its own is escaped,
and other text is written as it is. -/
def goEscape (c : Char) : List Char :=
  match letter c with
  | some e => ['\\',e]
  | none =>
    if c.toNat < 32 ∨ c = '<' ∨ c = '>' ∨ c = '&' ∨ c.toNat = 0x2028 ∨ c.toNat = 0x2029 then
      '\\' :: 'u' :: hexDigits c.toNat
    else [c]

def goString (s : String) : List Char := '"' :: (s.toList.flatMap goEscape ++ ['"'])

theorem units_goEscape (c : Char) (rest : List Char) :
    units (goEscape c ++ rest) = (units rest).map fun r => (c.toNat :: r.1,r.2) := by
  cases h : letter c with
  | some e =>
    obtain ⟨read, ne, _⟩ := unescaped_letter h
    have escaped : goEscape c ++ rest = '\\' :: e :: rest := by
      simp only [goEscape, h]
      rfl
    rw [escaped, JsonStream.units_letter ne, read]
    cases units rest <;> rfl
  | none =>
    by_cases special : c.toNat < 32 ∨ c = '<' ∨ c = '>' ∨ c = '&' ∨ c.toNat = 0x2028 ∨
        c.toNat = 0x2029
    · have escaped : goEscape c = '\\' :: 'u' :: hexDigits c.toNat := by
        simp only [goEscape, h, if_pos special]
      have small : c.toNat < 0x10000 := by
        obtain low | rfl | rfl | rfl | line | paragraph := special
        · omega
        · decide
        · decide
        · decide
        · omega
        · omega
      rw [escaped]
      exact units_unicode small rest
    · have escaped : goEscape c ++ rest = c :: rest := by
        simp only [goEscape, h, if_neg special]
        rfl
      have other : c ≠ '"' ∧ c ≠ '\\' := by
        unfold letter at h
        split_ifs at h with self
        exact not_or.mp self
      rw [escaped, JsonStream.units_plain other.1 other.2 fun low => special (Or.inl low)]
      cases units rest <;> rfl

theorem joinUnits_char (c : Char) (us : List Nat) :
    joinUnits (c.toNat :: us) = c :: joinUnits us := by
  have whole : isHigh c.toNat = false ∧ isLow c.toNat = false := by
    simp only [isHigh, isLow, Bool.and_eq_false_iff, decide_eq_false_iff_not]
    obtain low | high := c.valid
    · have below : c.toNat < 0xd800 := low
      omega
    · have above : 0xdfff < c.toNat := high.1
      omega
  rw [joinUnits.eq_def]
  simp only [whole, Bool.false_eq_true, if_false, Char.ofNat_toNat]

theorem units_goString (s rest : List Char) :
    units (s.flatMap goEscape ++ ('"' :: rest)) = some (s.map Char.toNat,rest) := by
  induction s with
  | nil =>
    rw [List.flatMap_nil, List.nil_append, units.eq_def]
    rfl
  | cons c s ih =>
    rw [List.flatMap_cons, List.append_assoc, units_goEscape, ih]
    rfl

theorem joinUnits_chars (s : List Char) : joinUnits (s.map Char.toNat) = s := by
  induction s with
  | nil => rfl
  | cons c s ih => rw [List.map_cons, joinUnits_char, ih]

theorem string_goString (s : String) (rest : List Char) :
    JsonScan.string (goString s ++ rest) = some (s,rest) := by
  rw [goString, List.cons_append, List.append_assoc, List.cons_append, List.nil_append,
    JsonScan.string, if_pos rfl, units_goString, Option.map_some, joinUnits_chars,
    String.ofList_toList]

/-- How objects are written: their strings and floats, and the blanks after a comma or a colon. -/
structure Writer where
  quote : String → List Char
  float : Datum → List Char
  gap : List Char
  quoted : ∀ s rest, JsonScan.string (quote s ++ rest) = some (s,rest)
  blank : ∀ c ∈ gap, isSpace c = true

/-- `json.Marshal` in Go -/
def goWriter (formatFloat : Datum → List Char) : Writer :=
  ⟨goString,formatFloat,[],string_goString,nofun⟩

/-- `json.dumps` in Python -/
def pyWriter (repr : Datum → List Char) : Writer :=
  ⟨JsonDump.string,repr,[' '],string_string,List.forall_mem_singleton.mpr rfl⟩

/-- The value of a member. -/
inductive Data
  | null
  | int (n : Int)
  | float (x : Datum)
  | bool (b : Bool)
  | string (s : String)

variable (w : Writer)

namespace Writer

def data : Data → List Char
  | .null => "null".toList
  | .int n => JsonDump.int n
  | .float x => w.float x
  | .bool b => (if b then "true" else "false").toList
  | .string s => w.quote s

def entry (m : String × Data) : List Char := w.quote m.1 ++ (':' :: (w.gap ++ w.data m.2))

def joined : List (List Char) → List Char
  | [] => []
  | text :: texts => text ++ texts.flatMap fun next => ',' :: (w.gap ++ next)

def object (ms : List (String × Data)) : List Char := '\x7b' :: (w.joined (ms.map w.entry) ++ ['\x7d'])

/-- What the reader of a struct meets. -/
def token : Data → Token
  | .null => .null
  | .int n => .number (JsonDump.int n)
  | .float x => .number (w.float x)
  | .bool b => .bool b
  | .string s => .string s

/-- A float is written as one number. -/
def Numeral (d : Data) : Prop :=
  ∀ x, d = .float x → ∃ literal, number (w.float x) = some (literal,[])

end Writer

/-- Python's object is the dict of the other module. -/
theorem object_pyWriter (repr : Datum → List Char) (ms : List (String × Data)) :
    (pyWriter repr).object ms = dict (Dict.mapValues (pyWriter repr).data ms) := by
  rw [Writer.object, dict, Dict.mapValues, List.map_map]
  rfl

section Read

variable {w}

theorem skip_gap (cs : List Char) : skip (w.gap ++ cs) = skip cs := by
  have all : w.gap.dropWhile isSpace = [] := List.dropWhile_eq_nil_iff.mpr w.blank
  rw [skip, skip, List.dropWhile_append, all]
  rfl

theorem quote_head (s : String) : ∃ cs, w.quote s = '"' :: cs := by
  have read := w.quoted s []
  rw [List.append_nil] at read
  cases hs : w.quote s with
  | nil =>
    rw [hs] at read
    cases read
  | cons c cs =>
    rw [hs, JsonScan.string] at read
    split_ifs at read with first
    exact ⟨cs,by rw [first]⟩

theorem entry_head (m : String × Data) : ∃ cs, w.entry m = '"' :: cs := by
  obtain ⟨cs, hs⟩ := quote_head (w := w) m.1
  refine ⟨cs ++ (':' :: (w.gap ++ w.data m.2)),?_⟩
  rw [Writer.entry, hs]
  rfl

theorem solid_entry (m : String × Data) : Solid (w.entry m) := by
  obtain ⟨cs, hs⟩ := entry_head (w := w) m
  rw [hs]
  exact ⟨'"',rfl,rfl⟩

theorem solid_number {text : List Char} {literal : Bool × ℚ}
    (h : number text = some (literal,[])) : Solid text := by
  cases text with
  | nil => cases h
  | cons c cs =>
    refine ⟨c,rfl,?_⟩
    obtain rfl | digit := head_of_number (by rw [h]; exact Option.some_ne_none _)
    · rfl
    · rw [← Bool.not_eq_true]
      intro space
      simp only [isSpace, Bool.or_eq_true, decide_eq_true_eq] at space
      obtain ((rfl | rfl) | rfl) | rfl := space <;> exact absurd digit (by decide)

/-- A whole number text is met as that text. -/
theorem token_text {depth : Nat} {text rest : List Char} {literal : Bool × ℚ}
    (h : number text = some (literal,[])) (ends : Ends rest) :
    token depth (text ++ rest) = some (.number text,rest) := by
  have extended : number (text ++ rest) = some (literal,rest) := extends_number h ends
  have whole : (text ++ rest).length - rest.length = text.length := by
    rw [List.length_append, Nat.add_sub_cancel]
  rw [JsonStream.token_number (by rw [extended]; exact Option.some_ne_none _), consumed, extended,
    Option.map_some, Option.map_some, whole, List.take_left]

theorem solid_data {d : Data} (h : w.Numeral d) : Solid (w.data d) := by
  cases d with
  | null => exact ⟨'n',rfl,rfl⟩
  | int n => exact solid_number (number_int n)
  | float x =>
    obtain ⟨literal, read⟩ := h x rfl
    exact solid_number read
  | bool b => cases b <;> exact ⟨_,rfl,rfl⟩
  | string s =>
    obtain ⟨cs, hs⟩ := quote_head (w := w) s
    refine ⟨'"',?_,rfl⟩
    rw [Writer.data, hs]
    rfl

theorem token_data {depth : Nat} {d : Data} (h : w.Numeral d) {rest : List Char}
    (ends : Ends rest) : token depth (w.data d ++ rest) = some (w.token d,rest) := by
  cases d with
  | null => exact JsonStream.token_null depth rest
  | int n => exact token_text (number_int n) ends
  | float x =>
    obtain ⟨literal, read⟩ := h x rfl
    exact token_text read ends
  | bool b => exact JsonStream.token_bool depth b rest
  | string s =>
    obtain ⟨cs, hs⟩ := quote_head (w := w) s
    have read := w.quoted s rest
    rw [Writer.data]
    rw [hs, List.cons_append] at read ⊢
    rw [JsonStream.token_scalar (by decide) (by decide), if_pos rfl, read]
    rfl

theorem member_entry {depth : Nat} {m : String × Data} (h : w.Numeral m.2) {rest : List Char}
    (ends : Ends rest) :
    member (token depth) (w.entry m ++ rest) = some ((m.1,w.token m.2),rest) := by
  have split : w.entry m ++ rest = w.quote m.1 ++ (':' :: (w.gap ++ (w.data m.2 ++ rest))) := by
    rw [Writer.entry, List.append_assoc, List.cons_append, List.append_assoc]
  have colon : skip (':' :: (w.gap ++ (w.data m.2 ++ rest))) =
    ':' :: (w.gap ++ (w.data m.2 ++ rest)) := rfl
  have space : skip (w.gap ++ (w.data m.2 ++ rest)) = w.data m.2 ++ rest := by
    rw [skip_gap]
    exact (solid_data h).skip_append rest
  rw [split, member, w.quoted]
  simp only [Option.bind_eq_bind, Option.bind_some, colon, if_true, space, token_data h ends]

/-- The entries up to the closing bracket, from the first on. -/
theorem items_joined {depth : Nat} {m : String × Data} {ms : List (String × Data)}
    (h : ∀ x ∈ m :: ms, w.Numeral x.2) {fuel : Nat} (enough : ms.length < fuel)
    {cs rest : List Char}
    (hcs : skip cs = w.joined ((m :: ms).map w.entry) ++ ('\x7d' :: rest)) :
    items (member (token depth)) '\x7d' fuel cs =
      some ((m :: ms).map fun x => (x.1,w.token x.2),rest) := by
  induction ms generalizing m fuel cs with
  | nil =>
    obtain ⟨fuel, rfl⟩ := Nat.exists_eq_add_of_lt enough
    have last : member (token depth) (w.entry m ++ ('\x7d' :: rest)) =
      some ((m.1,w.token m.2),'\x7d' :: rest) :=
      member_entry (h m List.mem_cons_self) (ends_of_mem (by decide) rest)
    rw [List.map_singleton, Writer.joined, List.flatMap_nil, List.append_nil] at hcs
    rw [items, hcs, last]
    rfl
  | cons next ms ih =>
    obtain ⟨fuel, rfl⟩ := Nat.exists_eq_add_of_lt (Nat.zero_lt_of_lt enough)
    have tail : ∀ x ∈ next :: ms, w.Numeral x.2 := fun x hx => h x (List.mem_cons_of_mem m hx)
    have split : w.joined ((m :: next :: ms).map w.entry) ++ ('\x7d' :: rest) =
        w.entry m ++ (',' :: (w.gap ++
          (w.joined ((next :: ms).map w.entry) ++ ('\x7d' :: rest)))) := by
      simp [Writer.joined]
    have space : skip (w.gap ++ (w.joined ((next :: ms).map w.entry) ++ ('\x7d' :: rest))) =
        w.joined ((next :: ms).map w.entry) ++ ('\x7d' :: rest) := by
      rw [skip_gap, List.map_cons, Writer.joined, List.append_assoc]
      exact (solid_entry next).skip_append _
    have here : member (token depth) (w.entry m ++ (',' :: (w.gap ++
        (w.joined ((next :: ms).map w.entry) ++ ('\x7d' :: rest))))) =
        some ((m.1,w.token m.2),',' :: (w.gap ++
          (w.joined ((next :: ms).map w.entry) ++ ('\x7d' :: rest)))) :=
      member_entry (h m List.mem_cons_self) (ends_of_mem (by decide) _)
    have left : ms.length < fuel := by
      rw [List.length_cons] at enough
      omega
    rw [Nat.zero_add, items, hcs, split, here]
    have unread (cs : List Char) : skip (',' :: cs) = ',' :: cs := rfl
    simp only [Option.bind_eq_bind, Option.bind_some, unread, ih tail left space]
    rfl

theorem length_le_joined (texts : List (List Char)) (solid : ∀ t ∈ texts, Solid t) :
    texts.length ≤ (w.joined texts).length := by
  cases texts with
  | nil => exact Nat.le_refl _
  | cons text texts =>
    have tail : texts.length ≤ (texts.flatMap fun next => ',' :: (w.gap ++ next)).length := by
      induction texts with
      | nil => exact Nat.le_refl _
      | cons next texts ih =>
        have rest := ih fun t ht => by
          obtain rfl | later := List.mem_cons.mp ht
          · exact solid t List.mem_cons_self
          · exact solid t (List.mem_cons_of_mem _ (List.mem_cons_of_mem _ later))
        rw [List.flatMap_cons, List.length_append, List.length_cons, List.length_cons]
        omega
    have first := (solid text List.mem_cons_self).length_pos
    rw [Writer.joined, List.length_append, List.length_cons]
    omega

/-- A written object is read back as its members, whatever stands after it. -/
theorem enclosed_object {ms : List (String × Data)} (h : ∀ m ∈ ms, w.Numeral m.2)
    (rest : List Char) :
    enclosed (member (token 9999)) '\x7d' (w.joined (ms.map w.entry) ++ ('\x7d' :: rest)) =
      some (ms.map fun m => (m.1,w.token m.2),rest) := by
  cases ms with
  | nil => rfl
  | cons m ms =>
    have whole : skip (w.joined ((m :: ms).map w.entry) ++ ('\x7d' :: rest)) =
        w.joined ((m :: ms).map w.entry) ++ ('\x7d' :: rest) := by
      rw [List.map_cons, Writer.joined, List.append_assoc]
      exact (solid_entry m).skip_append _
    have long := length_le_joined (w := w) ((m :: ms).map w.entry) (by
      intro t ht
      obtain ⟨x, _, rfl⟩ := List.mem_map.mp ht
      exact solid_entry x)
    rw [enclosed, whole]
    cases hcs : w.joined ((m :: ms).map w.entry) ++ ('\x7d' :: rest) with
    | nil => simp at hcs
    | cons c cs =>
      have first : c ≠ '\x7d' := by
        obtain ⟨ds, hs⟩ := entry_head (w := w) m
        rw [List.map_cons, Writer.joined, hs] at hcs
        rw [← (List.cons.inj hcs).1]
        decide
      simp only [if_neg first]
      refine items_joined h ?_ (by rw [← hcs]; exact whole)
      rw [← hcs, List.length_append]
      rw [List.length_map] at long
      rw [List.length_cons] at long
      omega

theorem members_object {ms : List (String × Data)} (h : ∀ m ∈ ms, w.Numeral m.2)
    (rest : List Char) :
    members (w.object ms ++ rest) = some (ms.map fun m => (m.1,w.token m.2)) := by
  have text : w.object ms ++ rest =
      '\x7b' :: (w.joined (ms.map w.entry) ++ ('\x7d' :: rest)) := by
    rw [Writer.object, List.cons_append, List.append_assoc]
    rfl
  rw [text]
  change (enclosed _ _ _).map Prod.fst = _
  rw [enclosed_object h]
  rfl

end Read

/-- The length of a text in bytes. -/
def bytes (cs : List Char) : Nat := (cs.map Char.utf8Size).sum

theorem maxBytes_of_le {limit : Nat} {cs : List Char} (h : bytes cs ≤ limit) :
    maxBytes limit cs = cs := by
  induction cs generalizing limit with
  | nil => rw [maxBytes]
  | cons c cs ih =>
    rw [bytes, List.map_cons, List.sum_cons, ← bytes] at h
    rw [maxBytes, if_pos (Nat.le_of_add_right_le h), ih (by omega)]

/-- A longer text loses its end. -/
theorem maxBytes_of_lt {limit : Nat} {cs : List Char} (h : limit < bytes cs) :
    ∃ later, later ≠ [] ∧ cs = maxBytes limit cs ++ later := by
  induction cs generalizing limit with
  | nil => exact absurd h (Nat.not_lt_zero limit)
  | cons c cs ih =>
    rw [bytes, List.map_cons, List.sum_cons, ← bytes] at h
    rw [maxBytes]
    split_ifs with fits
    · have longer : limit - c.utf8Size < bytes cs := by omega
      obtain ⟨later, some, split⟩ := ih longer
      exact ⟨later,some,congrArg (c :: ·) split⟩
    · exact ⟨c :: cs,List.cons_ne_nil c cs,rfl⟩

/-- The reader behind a limit gets a written object exactly when all of it fits. -/
theorem members_maxBytes {ms : List (String × Data)} (h : ∀ m ∈ ms, w.Numeral m.2) (limit : Nat) :
    members (maxBytes limit (w.object ms)) =
      if bytes (w.object ms) ≤ limit then some (ms.map fun m => (m.1,w.token m.2)) else none := by
  split_ifs with fits
  · have whole := members_object h []
    rw [List.append_nil] at whole
    rw [maxBytes_of_le fits, whole]
  · obtain ⟨later, some, split⟩ := maxBytes_of_lt (Nat.lt_of_not_le fits)
    cases front : maxBytes limit (w.object ms) with
    | nil => rfl
    | cons c early =>
      rw [front, Writer.object, List.cons_append] at split
      obtain ⟨brace, inside⟩ := List.cons.inj split
      have whole := enclosed_object h []
      rw [inside] at whole
      rw [← brace]
      exact JsonStream.members_of_prefix whole some

/-- A field of a struct: its name, and what a value of it makes of the struct; `none` where the
value is of another type. -/
structure StructField (σ : Type) where
  name : String
  put : Token → σ → Option σ

variable {σ : Type}

def intField (name : String) (set : Int → σ → σ) : StructField σ where
  name := name
  put token s := match token with
    | .null => some s
    | .number text => (parseInt64 text).map fun n => set n s
    | _ => none

/-- `strconv.ParseFloat(s, 64)` of a number literal -/
def parseFloat64 (text : List Char) : Option Datum :=
  match number text with
  | some (literal,[]) => toDouble literal
  | _ => none

def floatField (name : String) (set : Datum → σ → σ) : StructField σ where
  name := name
  put token s := match token with
    | .null => some s
    | .number text => (parseFloat64 text).map fun x => set x s
    | _ => none

def boolField (name : String) (set : Bool → σ → σ) : StructField σ where
  name := name
  put token s := match token with
    | .null => some s
    | .bool b => some (set b s)
    | _ => none

def stringField (name : String) (set : String → σ → σ) : StructField σ where
  name := name
  put token s := match token with
    | .null => some s
    | .string t => some (set t s)
    | _ => none

/-- The field of that very name, or else the first that agrees with it up to case. -/
def fieldOf (fields : List (StructField σ)) (key : String) : Option (StructField σ) :=
  (fields.find? fun f => f.name = key).or (fields.find? fun f => isField f.name key)

/-- A member that no field is for is passed over. -/
def setMember (fields : List (StructField σ)) (s : σ) (m : String × Token) : Option σ :=
  match fieldOf fields m.1 with
  | none => some s
  | some f => f.put m.2 s

/-- `Decoder.Decode` into a struct. -/
def decode (fields : List (StructField σ)) (zero : σ) (cs : List Char) : Option σ := do
  (← members cs).foldlM (setMember fields) zero

theorem decodeInt64_eq (name : String) (cs : List Char) :
    decodeInt64 name cs = decode [intField name fun n _ => n] 0 cs := by
  have same : setInt64 name = setMember [intField name fun n _ => n] := by
    funext value m
    obtain ⟨key, token⟩ := m
    by_cases exact : name = key
    · rw [exact]
      simp only [setInt64, setMember, fieldOf, isField, intField, List.find?_cons, decide_true,
        Bool.true_or, if_true, Option.or_some]
      cases token with
      | number text => simp
      | _ => rfl
    · by_cases folded : isField name key = true
      · simp only [setInt64, setMember, fieldOf, intField, List.find?_cons, exact, folded,
          decide_false, List.find?_nil, Option.none_or, if_true]
        cases token with
        | number text => simp
        | _ => rfl
      · simp only [setInt64, setMember, fieldOf, intField, List.find?_cons, exact, folded,
          decide_false, List.find?_nil, Option.none_or]
        rfl
  rw [decodeInt64, decode, same]

theorem parseInt64_int (n : Int) :
    parseInt64 (JsonDump.int n) = if -2 ^ 63 ≤ n ∧ n < 2 ^ 63 then some n else none := by
  have digit {c : Char} (hc : c ∈ Nat.toDigits 10 n.natAbs) : c.isDigit :=
    Nat.isDigit_of_mem_toDigits (by decide) (by decide) hc
  have all : (Nat.toDigits 10 n.natAbs).all Char.isDigit = true := by
    rw [List.all_eq_true]
    exact fun c hc => digit hc
  have some : Nat.toDigits 10 n.natAbs ≠ [] := Nat.toDigits_ne_nil
  by_cases negative : n < 0
  · have value : -(n.natAbs : Int) = n := by omega
    rw [JsonDump.int, if_pos negative, parseInt64]
    simp only [List.head?_cons, if_true, List.drop_succ_cons, List.drop_zero, all,
      Nat.ofDigitChars_ten_toDigits, value, ne_eq, some, not_false_eq_true, true_and]
  · have value : (n.natAbs : Int) = n := by omega
    have plain : (Nat.toDigits 10 n.natAbs).head? ≠ Option.some '-' := by
      intro dash
      have first := digit (List.mem_of_head? dash)
      exact absurd first (by decide)
    rw [JsonDump.int, if_neg negative, parseInt64]
    simp only [plain, if_false, all, Nat.ofDigitChars_ten_toDigits, value, ne_eq,
      some, not_false_eq_true, true_and]

theorem parseFloat64_exact {repr : Datum → List Char} {x : Datum} (h : JsonDump.Exact repr x) :
    parseFloat64 (repr x) = some x := by
  obtain ⟨literal, read, double⟩ := h
  rw [parseFloat64, read]
  exact double

/-- A struct behind a limit gets the members of a written object one by one, or nothing. -/
theorem decode_maxBytes {w : Writer} {ms : List (String × Data)} (h : ∀ m ∈ ms, w.Numeral m.2)
    (fields : List (StructField σ)) (zero : σ) (limit : Nat) :
    decode fields zero (maxBytes limit (w.object ms)) =
      if bytes (w.object ms) ≤ limit then
        (ms.map fun m => (m.1,w.token m.2)).foldlM (setMember fields) zero
      else none := by
  rw [decode, members_maxBytes w h]
  split_ifs <;> rfl

/-- The same of a stream that goes on after the object. -/
theorem decode_object {w : Writer} {ms : List (String × Data)} (h : ∀ m ∈ ms, w.Numeral m.2)
    (fields : List (StructField σ)) (zero : σ) (rest : List Char) :
    decode fields zero (w.object ms ++ rest) =
      (ms.map fun m => (m.1,w.token m.2)).foldlM (setMember fields) zero := by
  rw [decode, members_object h rest]
  rfl

theorem bytes_append (cs ds : List Char) : bytes (cs ++ ds) = bytes cs + bytes ds := by
  rw [bytes, List.map_append, List.sum_append]
  rfl

theorem bytes_cons (c : Char) (cs : List Char) : bytes (c :: cs) = c.utf8Size + bytes cs := by
  rw [bytes, List.map_cons, List.sum_cons]
  rfl

theorem bytes_toDigits (n : Nat) : bytes (Nat.toDigits 10 n) = (Nat.toDigits 10 n).length := by
  have digit {c : Char} (hc : c ∈ Nat.toDigits 10 n) : c.isDigit :=
    Nat.isDigit_of_mem_toDigits (by decide) (by decide) hc
  generalize Nat.toDigits 10 n = cs at digit
  induction cs with
  | nil => rfl
  | cons c cs ih =>
    have one : c.utf8Size = 1 := by
      have small := digit List.mem_cons_self
      simp only [Char.isDigit, Bool.and_eq_true, decide_eq_true_eq] at small
      exact Char.utf8Size_eq_one_iff.mpr (UInt32.le_trans small.2 (by decide))
    rw [bytes_cons, one, ih fun hc => digit (List.mem_cons_of_mem c hc), List.length_cons,
      Nat.add_comm]

/-- A word of 64 bits takes twenty characters at most. -/
theorem bytes_int {n : Int} (h : -2 ^ 63 ≤ n ∧ n < 2 ^ 63) : bytes (JsonDump.int n) ≤ 20 := by
  have short : (Nat.toDigits 10 n.natAbs).length ≤ 19 :=
    (Nat.length_toDigits_le_iff (by decide) (by decide)).mpr (by omega)
  unfold JsonDump.int
  split_ifs with negative
  · rw [bytes_cons, bytes_toDigits]
    have dash : '-'.utf8Size = 1 := rfl
    omega
  · rw [bytes_toDigits]
    omega

end Framework.JsonWire
