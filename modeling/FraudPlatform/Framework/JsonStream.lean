import FraudPlatform.Framework.JsonStruct

namespace Framework.JsonStream

open JsonScan JsonStruct

variable {α : Type} {scan : Scanner α}

/-- What is read off the front is read the same when more text arrives. -/
def Closed (scan : Scanner α) : Prop :=
  ∀ {cs tail rest : List Char} {x : α}, scan cs = some (x,tail) →
    scan (cs ++ rest) = some (x,tail ++ rest)

/-- The same of what is read before some text: only at its end a number might go on. -/
def Local (scan : Scanner α) : Prop :=
  ∀ {cs tail rest : List Char} {x : α}, scan cs = some (x,tail) → tail ≠ [] →
    scan (cs ++ rest) = some (x,tail ++ rest)

/-- Nothing is left of nothing. -/
def Idle (scan : Scanner α) : Prop := ∀ {tail : List Char} {x : α}, scan [] = some (x,tail) → tail = []

theorem Idle.nonempty {cs tail : List Char} {x : α} (h : Idle scan)
    (read : scan cs = some (x,tail)) (left : tail ≠ []) : cs ≠ [] := by
  intro empty
  rw [empty] at read
  exact left (h read)

theorem skip_append {cs : List Char} (left : skip cs ≠ []) (rest : List Char) :
    skip (cs ++ rest) = skip cs ++ rest := by
  have some : ¬(cs.dropWhile isSpace).isEmpty = true := by
    rw [List.isEmpty_iff]
    exact left
  rw [skip, List.dropWhile_append, if_neg some]
  rfl

theorem local_digits : Local digits := by
  intro cs tail rest x h left
  unfold digits at h
  split_ifs at h with nonempty
  cases h
  have stops : ¬(cs.dropWhile Char.isDigit).isEmpty = true := by
    rw [List.isEmpty_iff]
    exact left
  have short : ¬(cs.takeWhile Char.isDigit).length = cs.length := by
    intro whole
    have length := congrArg List.length (List.takeWhile_append_dropWhile (p := Char.isDigit) (l := cs))
    rw [List.length_append, whole] at length
    exact left (List.eq_nil_of_length_eq_zero (by omega))
  have run : (cs ++ rest).takeWhile Char.isDigit = cs.takeWhile Char.isDigit := by
    rw [List.takeWhile_append, if_neg short]
  have after : (cs ++ rest).dropWhile Char.isDigit = cs.dropWhile Char.isDigit ++ rest := by
    rw [List.dropWhile_append, if_neg stops]
  rw [digits, run, after, if_neg nonempty]

theorem closed_sign : Closed sign := by
  intro cs tail rest x h
  cases cs with
  | nil => cases h
  | cons c cs =>
    simp only [sign, List.cons_append] at h ⊢
    split_ifs at h ⊢
    all_goals
      cases h
      rfl

theorem closed_exponentSign : Closed exponentSign := by
  intro cs tail rest x h
  cases cs with
  | nil => cases h
  | cons c cs =>
    simp only [exponentSign, List.cons_append] at h ⊢
    split_ifs at h ⊢
    all_goals
      cases h
      rfl

theorem local_whole : Local whole := by
  intro cs tail rest x h left
  cases cs with
  | nil => cases h
  | cons c cs =>
    simp only [whole, List.cons_append] at h ⊢
    split_ifs at h ⊢
    · cases h
      rfl
    · exact local_digits h left

theorem local_fraction : Local fraction := by
  intro cs tail rest x h left
  cases cs with
  | nil =>
    cases h
    exact absurd rfl left
  | cons c cs =>
    simp only [fraction, List.cons_append] at h ⊢
    split_ifs at h ⊢
    · exact local_digits h left
    · cases h
      rfl

theorem local_exponent : Local exponent := by
  intro cs tail rest x h left
  cases cs with
  | nil =>
    cases h
    exact absurd rfl left
  | cons c cs =>
    simp only [exponent, List.cons_append] at h ⊢
    split_ifs at h ⊢
    · simp only [Option.bind_eq_bind, Option.bind_eq_some_iff, Prod.exists] at h
      obtain ⟨negative, afterSign, hs, ds, afterDigits, hd, h⟩ := h
      cases h
      simp only [closed_exponentSign hs, local_digits hd left, Option.bind_eq_bind,
        Option.bind_some]
    · cases h
      rfl

theorem idle_fraction : Idle fraction := by
  intro tail x h
  cases h
  rfl

theorem idle_exponent : Idle exponent := by
  intro tail x h
  cases h
  rfl

theorem local_number : Local number := by
  intro cs tail rest x h left
  simp only [number, Option.bind_eq_bind, Option.bind_eq_some_iff, Prod.exists] at h
  obtain ⟨negative, afterSign, hs, ds, afterWhole, hw, fs, afterFraction, hf, e, afterExponent, he,
    h⟩ := h
  cases h
  have beforeExponent : afterFraction ≠ [] := idle_exponent.nonempty he left
  have beforeFraction : afterWhole ≠ [] := idle_fraction.nonempty hf beforeExponent
  simp only [number, closed_sign hs, local_whole hw beforeFraction,
    local_fraction hf beforeExponent, local_exponent he left, Option.bind_eq_bind,
    Option.bind_some]

theorem units_unicode {a b c d : Char} {cs : List Char} :
    units ('\\' :: 'u' :: a :: b :: c :: d :: cs) =
      (hex4 a b c d).bind fun u => (units cs).bind fun r => some (u :: r.1,r.2) := by
  rw [units.eq_def]
  rfl

theorem units_letter {e : Char} {cs : List Char} (other : e ≠ 'u') :
    units ('\\' :: e :: cs) =
      (unescaped e).bind fun u => (units cs).bind fun r => some (u :: r.1,r.2) := by
  rw [units.eq_def]
  simp only [if_neg other]
  rfl

theorem units_plain {c : Char} {cs : List Char} (quote : c ≠ '"') (slash : c ≠ '\\')
    (control : ¬c.toNat < 32) :
    units (c :: cs) = (units cs).bind fun r => some (c.toNat :: r.1,r.2) := by
  rw [units.eq_def]
  simp only [if_neg quote, if_neg slash, if_neg control]
  rfl

/-- Characters of a string are read one by one, whatever the first of them is read as. -/
theorem closed_bind {u : Option Nat} {cs tail rest : List Char} {us : List Nat}
    (closed : ∀ {tail : List Char} {us : List Nat}, units cs = some (us,tail) →
      units (cs ++ rest) = some (us,tail ++ rest))
    (h : (u.bind fun u => (units cs).bind fun r => some (u :: r.1,r.2)) = some (us,tail)) :
    (u.bind fun u => (units (cs ++ rest)).bind fun r => some (u :: r.1,r.2)) =
      some (us,tail ++ rest) := by
  obtain ⟨v, hv, h⟩ := Option.bind_eq_some_iff.mp h
  obtain ⟨r, hr, same⟩ := Option.bind_eq_some_iff.mp h
  cases same
  rw [hv, Option.bind_some, closed hr]
  rfl

theorem closed_units : Closed units := by
  intro cs
  induction cs using units.induct with
  | case1 =>
    intro tail rest us h
    cases h
  | case2 cs =>
    intro tail rest us h
    rw [units.eq_def] at h ⊢
    cases h
    rfl
  | case3 =>
    intro tail rest us h
    rw [units.eq_def] at h
    cases h
  | case4 a b c d cs _ ih =>
    intro tail rest us h
    rw [units_unicode] at h
    simp only [List.cons_append]
    rw [units_unicode]
    exact closed_bind ih h
  | case5 cs short _ =>
    intro tail rest us h
    rw [units.eq_def] at h
    simp at h
  | case6 e cs other _ ih =>
    intro tail rest us h
    rw [units_letter other] at h
    simp only [List.cons_append]
    rw [units_letter other]
    exact closed_bind ih h
  | case7 c cs quote slash control =>
    intro tail rest us h
    rw [units.eq_def] at h
    simp [quote, slash, control] at h
  | case8 c cs quote slash control ih =>
    intro tail rest us h
    rw [units_plain quote slash control] at h
    rw [List.cons_append, units_plain quote slash control]
    exact closed_bind (u := some c.toNat) ih h

theorem closed_string : Closed string := by
  intro cs tail rest s h
  cases cs with
  | nil => cases h
  | cons c cs =>
    simp only [string, List.cons_append] at h ⊢
    split_ifs at h ⊢
    obtain ⟨r, hr, same⟩ := Option.map_eq_some_iff.mp h
    cases same
    rw [closed_units hr]
    rfl

theorem local_member (empty : scan [] = none) (h : Local scan) : Local (member scan) := by
  intro cs tail rest x read left
  simp only [member, Option.bind_eq_bind, Option.bind_eq_some_iff, Prod.exists] at read ⊢
  obtain ⟨key, afterKey, hk, read⟩ := read
  refine ⟨key,afterKey ++ rest,closed_string hk,?_⟩
  cases hs : skip afterKey with
  | nil =>
    rw [hs] at read
    cases read
  | cons c cs =>
    rw [hs] at read
    rw [skip_append (by rw [hs]; exact List.cons_ne_nil c cs), hs]
    simp only [List.cons_append] at read ⊢
    split_ifs at read ⊢
    simp only [Option.bind_eq_some_iff, Prod.exists] at read
    obtain ⟨value, afterValue, hv, same⟩ := read
    cases same
    have some : skip cs ≠ [] := by
      intro none
      rw [none, empty] at hv
      cases hv
    rw [skip_append some, h hv left]
    rfl

/-- With fuel to spare the list is read the same, and it ends with its closing character. -/
theorem items_append {close : Char} (empty : scan [] = none) (h : Local scan) {fuel more : Nat}
    (enough : fuel ≤ more) {cs tail rest : List Char} {xs : List α}
    (read : items scan close fuel cs = some (xs,tail)) :
    items scan close more (cs ++ rest) = some (xs,tail ++ rest) := by
  induction fuel generalizing more cs tail xs with
  | zero => cases read
  | succ fuel ih =>
    obtain ⟨more, rfl⟩ := Nat.exists_eq_add_of_le' (Nat.one_le_of_lt enough)
    simp only [items, Option.bind_eq_bind, Option.bind_eq_some_iff, Prod.exists] at read ⊢
    obtain ⟨x, afterItem, hx, read⟩ := read
    have some : skip cs ≠ [] := by
      intro none
      rw [none, empty] at hx
      cases hx
    cases hs : skip afterItem with
    | nil =>
      rw [hs] at read
      cases read
    | cons c later =>
      have left : skip afterItem ≠ [] := by
        rw [hs]
        exact List.cons_ne_nil c later
      have before : afterItem ≠ [] := by
        intro none
        rw [none] at left
        exact left rfl
      refine ⟨x,afterItem ++ rest,?_,?_⟩
      · rw [skip_append some]
        exact h hx before
      · rw [hs] at read
        rw [skip_append left, hs]
        simp only [List.cons_append] at read ⊢
        split_ifs at read ⊢
        · cases read
          rfl
        · simp only [Option.bind_eq_some_iff, Prod.exists] at read
          obtain ⟨ys, afterItems, hys, same⟩ := read
          cases same
          rw [ih (Nat.le_of_succ_le_succ enough) hys]
          rfl

theorem closed_enclosed {close : Char} (empty : scan [] = none) (h : Local scan) :
    Closed (enclosed scan close) := by
  intro cs tail rest xs read
  unfold enclosed at read ⊢
  cases hs : skip cs with
  | nil =>
    rw [hs] at read
    cases read
  | cons c later =>
    rw [hs] at read
    rw [skip_append (by rw [hs]; exact List.cons_ne_nil c later), hs]
    simp only [List.cons_append] at read ⊢
    split_ifs at read ⊢
    · cases read
      rfl
    · refine items_append empty h ?_ read
      simp

theorem token_nil (depth : Nat) : token depth [] = none := by
  rw [token.eq_def]

theorem local_consumed (h : Local scan) : Local (consumed scan) := by
  intro cs tail rest text read left
  obtain ⟨r, hr, same⟩ := Option.map_eq_some_iff.mp read
  cases same
  have taken : (cs ++ rest).length - (r.2 ++ rest).length = cs.length - r.2.length := by
    rw [List.length_append, List.length_append, Nat.add_sub_add_right]
  rw [consumed, h hr left, Option.map_some, taken, List.take_append_of_le_length (Nat.sub_le _ _)]

theorem token_null (depth : Nat) (cs : List Char) :
    token depth ("null".toList ++ cs) = some (.null,cs) := by
  change token depth ('n' :: ("ull".toList ++ cs)) = _
  rw [token.eq_def]
  simp

theorem token_bool (depth : Nat) (b : Bool) (cs : List Char) :
    token depth ((if b then "true" else "false").toList ++ cs) = some (.bool b,cs) := by
  cases b with
  | true =>
    change token depth ('t' :: ("rue".toList ++ cs)) = _
    rw [token.eq_def]
    simp
  | false =>
    change token depth ('f' :: ("alse".toList ++ cs)) = _
    rw [token.eq_def]
    simp

/-- What begins like a number begins none of the words. -/
theorem not_word {c : Char} {cs : List Char} (h : c = '-' ∨ c.isDigit) :
    ∀ word ∈ ["null","true","false"], ¬word.toList <+: c :: cs := by
  have letters : ∀ d ∈ ['n','t','f'], c ≠ d := by
    intro d hd same
    rw [same] at h
    simp only [List.mem_cons, List.not_mem_nil, or_false] at hd
    obtain rfl | rfl | rfl := hd
    all_goals exact absurd h (by decide)
  intro word hw begins
  simp only [List.mem_cons, List.not_mem_nil, or_false] at hw
  obtain rfl | rfl | rfl := hw
  · exact letters 'n' (by decide) (List.cons_prefix_cons.mp begins).1.symm
  · exact letters 't' (by decide) (List.cons_prefix_cons.mp begins).1.symm
  · exact letters 'f' (by decide) (List.cons_prefix_cons.mp begins).1.symm

/-- A value that is no bracket does not depend on the depth. -/
theorem token_scalar {depth : Nat} {c : Char} {cs : List Char} (brace : c ≠ '\x7b')
    (bracket : c ≠ '[') :
    token depth (c :: cs) =
      if c = '"' then (string (c :: cs)).map fun r => (.string r.1,r.2)
      else if "null".toList <+: c :: cs then some (.null,cs.drop 3)
      else if "true".toList <+: c :: cs then some (.bool true,cs.drop 3)
      else if "false".toList <+: c :: cs then some (.bool false,cs.drop 4)
      else (consumed number (c :: cs)).map fun r => (.number r.1,r.2) := by
  rw [token.eq_def]
  simp only [if_neg brace, if_neg bracket]

theorem token_number {depth : Nat} {cs : List Char} (h : number cs ≠ none) :
    token depth cs = (consumed number cs).map fun r => (.number r.1,r.2) := by
  cases cs with
  | nil => exact absurd rfl h
  | cons c cs =>
    have first := head_of_number h
    have other : ∀ d ∈ ['\x7b','[','"'], c ≠ d := by
      intro d hd same
      rw [same] at first
      simp only [List.mem_cons, List.not_mem_nil, or_false] at hd
      obtain rfl | rfl | rfl := hd
      all_goals exact absurd first (by decide)
    have words : ∀ word ∈ ["null","true","false"], ¬word.toList <+: c :: cs := not_word first
    rw [token_scalar (other '\x7b' (by decide)) (other '[' (by decide)),
      if_neg (other '"' (by decide)), if_neg (words "null" (by decide)),
      if_neg (words "true" (by decide)), if_neg (words "false" (by decide))]

theorem local_scalar {depth : Nat} {c : Char} {cs tail rest : List Char} {x : Token}
    (brace : c ≠ '\x7b') (bracket : c ≠ '[') (h : token depth (c :: cs) = some (x,tail))
    (left : tail ≠ []) : token depth (c :: cs ++ rest) = some (x,tail ++ rest) := by
  rw [token_scalar brace bracket] at h
  split_ifs at h with quote null true false
  · obtain ⟨r, hr, same⟩ := Option.map_eq_some_iff.mp h
    cases same
    have longer : string (c :: cs ++ rest) = some (r.1,r.2 ++ rest) := closed_string hr
    rw [List.cons_append] at longer ⊢
    rw [token_scalar brace bracket, if_pos quote, longer]
    rfl
  · obtain ⟨later, split⟩ := null
    cases split
    cases h
    exact token_null depth (later ++ rest)
  · obtain ⟨later, split⟩ := true
    cases split
    cases h
    exact token_bool depth .true (later ++ rest)
  · obtain ⟨later, split⟩ := false
    cases split
    cases h
    exact token_bool depth .false (later ++ rest)
  · obtain ⟨r, hr, same⟩ := Option.map_eq_some_iff.mp h
    cases same
    have longer : consumed number (c :: cs ++ rest) = some (r.1,r.2 ++ rest) :=
      local_consumed local_number hr left
    have read : number (c :: cs ++ rest) ≠ none := by
      intro none
      rw [consumed, none] at longer
      cases longer
    rw [token_number read, longer]
    rfl

/-- A value is read the same before longer text, its brackets to any depth. -/
theorem local_token (depth : Nat) : Local (token depth) := by
  induction depth with
  | zero =>
    intro cs tail rest x h left
    cases cs with
    | nil =>
      rw [token_nil] at h
      cases h
    | cons c cs =>
      by_cases brace : c = '\x7b'
      · rw [token.eq_def] at h
        simp only [if_pos brace] at h
        cases h
      · by_cases bracket : c = '['
        · rw [token.eq_def] at h
          simp only [if_neg brace, if_pos bracket] at h
          cases h
        · exact local_scalar brace bracket h left
  | succ depth ih =>
    have idle := token_nil depth
    intro cs tail rest x h left
    cases cs with
    | nil =>
      rw [token_nil] at h
      cases h
    | cons c cs =>
      by_cases brace : c = '\x7b'
      · rw [token.eq_def] at h
        rw [List.cons_append, token.eq_def]
        simp only [if_pos brace] at h ⊢
        obtain ⟨r, hr, same⟩ := Option.map_eq_some_iff.mp h
        cases same
        have entries : Local (member (token depth)) := local_member idle ih
        rw [closed_enclosed rfl entries hr]
        rfl
      · by_cases bracket : c = '['
        · rw [token.eq_def] at h
          rw [List.cons_append, token.eq_def]
          simp only [if_neg brace, if_pos bracket] at h ⊢
          obtain ⟨r, hr, same⟩ := Option.map_eq_some_iff.mp h
          cases same
          rw [closed_enclosed idle ih hr]
          rfl
        · exact local_scalar brace bracket h left

/-- An object is read when it is complete, and no sooner. -/
theorem members_of_prefix {early later : List Char} {ms : List (String × Token)}
    (whole : enclosed (member (token 9999)) '\x7d' (early ++ later) = some (ms,[]))
    (nonempty : later ≠ []) : members ('\x7b' :: early) = none := by
  cases read : enclosed (member (token 9999)) '\x7d' early with
  | none =>
    change (enclosed _ _ early).map Prod.fst = none
    rw [read]
    rfl
  | some r =>
    have longer : enclosed (member (token 9999)) '\x7d' (early ++ later) = some (r.1,r.2 ++ later) :=
      closed_enclosed rfl (local_member (token_nil 9999) (local_token 9999)) read
    rw [whole] at longer
    have none := congrArg Prod.snd (Option.some.inj longer)
    exact absurd (List.append_eq_nil_iff.mp none.symm).2 nonempty

end Framework.JsonStream
