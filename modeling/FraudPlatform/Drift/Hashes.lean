import FraudPlatform.Drift.Detectors

namespace FraudPlatform.Drift

open Framework

/-- The bucket of a hash that begins with two hexadecimal digits. -/
def firstByte (hash : String) : Option Nat :=
  match hash.toList with
  | c :: d :: _ => do
    let a ← PyInt.digit? c
    let b ← PyInt.digit? d
    some (a * 16 + b)
  | _ => none

/-- Shorter than two characters, or begun by two hexadecimal digits. -/
def Hexadecimal (hash : String) : Prop := 2 ≤ hash.length → (firstByte hash).isSome

instance (hash : String) : Decidable (Hexadecimal hash) := inferInstanceAs (Decidable (_ → _))

/-- How many of the hashes fall in a bucket. -/
def occurrences (hashes : List String) (i : Nat) : Nat :=
  hashes.countP fun hash => firstByte hash = some i

/-- The counts of the buckets, as a list. -/
def counted (f : Nat → Nat) : List Nat := (List.range nBuckets).map f

theorem firstByte_lt {hash : String} {b : Nat} (h : firstByte hash = some b) : b < nBuckets := by
  unfold firstByte at h
  split at h
  · next c d _ _ =>
    cases hc : PyInt.digit? c with
    | none => simp [hc] at h
    | some a =>
      cases hd : PyInt.digit? d with
      | none => simp [hc, hd] at h
      | some e =>
        have first := PyInt.digit?_lt hc
        have second := PyInt.digit?_lt hd
        simp [hc, hd] at h
        unfold nBuckets
        omega
  · cases h

theorem bucket_eq {hash : String} (h : Hexadecimal hash) : bucket hash = .ok (firstByte hash) := by
  unfold bucket
  split_ifs with two
  · obtain ⟨b, hb⟩ := Option.isSome_iff_exists.mp (h two)
    have inside := firstByte_lt hb
    rw [hb]
    unfold firstByte at hb
    split at hb
    · next c d rest hs =>
      cases hc : PyInt.digit? c with
      | none => simp [hc] at hb
      | some a =>
        cases hd : PyInt.digit? d with
        | none => simp [hc, hd] at hb
        | some e =>
          have value : a * 16 + e = b := by simpa [hc, hd] using hb
          have index : pyIndex nBuckets ((b : Nat) : Int) = some b := by
            have below : ((b : Nat) : Int) < nBuckets := by exact_mod_cast inside
            rw [pyIndex, if_pos (Int.natCast_nonneg b), if_pos below, Int.toNat_natCast]
          rw [hs, List.take_succ_cons, List.take_succ_cons, List.take_zero,
            PyInt.int16_pair hc hd, value]
          simp only [index]
    · cases hb
  · have short : hash.toList.length < 2 := by
      rw [String.length_toList]
      omega
    unfold firstByte
    split
    · next c d rest hs =>
      rw [hs, List.length_cons, List.length_cons] at short
      omega
    · rfl

theorem modify_counted (f : Nat → Nat) (b : Nat) :
    (counted f).modify b (· + 1) = counted fun i => f i + if i = b then 1 else 0 := by
  apply List.ext_getElem?
  intro i
  rw [List.getElem?_modify, counted, counted, List.getElem?_map, List.getElem?_map]
  by_cases inside : i < nBuckets
  · by_cases same : b = i
    · simp [inside, same]
    · simp [inside, same, Ne.symm same]
  · simp [inside]

theorem occurrences_cons {hash : String} {hashes : List String} {b : Nat}
    (h : firstByte hash = some b) (i : Nat) :
    occurrences (hash :: hashes) i = occurrences hashes i + if i = b then 1 else 0 := by
  by_cases same : i = b
  · simp [occurrences, h, same]
  · simp [occurrences, h, same, Ne.symm same]

theorem countBuckets_eq {hashes : List String} (h : ∀ hash ∈ hashes, Hexadecimal hash)
    (f : Nat → Nat) :
    countBuckets (counted f) hashes = .ok (counted fun i => f i + occurrences hashes i) := by
  induction hashes generalizing f with
  | nil => rfl
  | cons hash hashes ih =>
    have rest := ih fun x hx => h x (List.mem_cons_of_mem hash hx)
    rw [countBuckets, bucket_eq (h hash List.mem_cons_self)]
    cases hb : firstByte hash with
    | none =>
      have same : occurrences (hash :: hashes) = occurrences hashes := by
        funext i
        simp [occurrences, hb]
      rw [same]
      exact rest f
    | some b =>
      have more : (fun i => f i + occurrences (hash :: hashes) i) =
          fun i => (f i + if i = b then 1 else 0) + occurrences hashes i := by
        funext i
        rw [occurrences_cons hb]
        omega
      rw [more, ← rest]
      change countBuckets ((counted f).modify b (· + 1)) hashes = _
      rw [modify_counted]

section Occurrences

variable {hashes hashes' : List String}

theorem occurrences_perm (h : hashes.Perm hashes') : occurrences hashes = occurrences hashes' := by
  funext i
  exact h.countP_eq _

theorem occurrences_repeat (k : Nat) :
    occurrences (List.replicate k hashes).flatten = fun i => k * occurrences hashes i := by
  funext i
  rw [occurrences, List.countP_flatten, List.map_replicate, List.sum_replicate_nat]
  rfl

theorem hexadecimal_repeat {k : Nat} (h : ∀ hash ∈ hashes, Hexadecimal hash) :
    ∀ hash ∈ (List.replicate k hashes).flatten, Hexadecimal hash := by
  intro hash hm
  obtain ⟨block, hb, mem⟩ := List.mem_flatten.mp hm
  rw [List.eq_of_mem_replicate hb] at mem
  exact h hash mem

theorem occurrences_pos {hash : String} {b : Nat} (hm : hash ∈ hashes)
    (hb : firstByte hash = some b) : 0 < occurrences hashes b :=
  List.countP_pos_iff.mpr ⟨hash,hm,decide_eq_true hb⟩

end Occurrences

variable {F : Type} [Numpy F]

/-- The fractions of the buckets, all the same where nothing was counted. -/
def shares (f : Nat → Nat) : List F :=
  if (counted f).sum = 0 then List.replicate nBuckets (1 / Numpy.ofInt nBuckets)
  else (counted f).map fun n : Nat => Numpy.ofInt n / Numpy.ofInt (counted f).sum

theorem bucketCounts_eq {hashes : List String} (h : ∀ hash ∈ hashes, Hexadecimal hash) :
    bucketCounts hashes = .ok (shares (F := F) (occurrences hashes)) := by
  have start : List.replicate nBuckets 0 = counted fun _ => 0 := by
    simp [counted, List.map_const']
  have counts := countBuckets_eq h fun _ => 0
  simp only [Nat.zero_add] at counts
  rw [bucketCounts, start, counts, shares]
  generalize counted (occurrences hashes) = total
  change (if total.sum = 0 then _ else _) = _
  split_ifs
  · rfl
  · have cast : (do let n ← total; pure (n : Int)) = total.map fun n : Nat => (n : Int) :=
      List.flatMap_pure_eq_map _ _
    rw [cast, List.map_map]
    rfl

theorem computeJs_eq (S : Scipy F) {referenceHashes recentHashes : List String}
    (reference : ∀ hash ∈ referenceHashes, Hexadecimal hash)
    (recent : ∀ hash ∈ recentHashes, Hexadecimal hash) :
    computeJsOnHashes S referenceHashes recentHashes =
      .ok (S.jensenshannon (smooth (shares (occurrences referenceHashes)))
        (smooth (shares (occurrences recentHashes)))) := by
  rw [computeJsOnHashes, bucketCounts_eq reference, bucketCounts_eq recent]
  rfl

end FraudPlatform.Drift
