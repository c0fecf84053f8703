import FraudPlatform.Framework.Numpy
import FraudPlatform.Framework.PyInt

namespace FraudPlatform.Drift

open Framework

/-- What a check raises. -/
inductive Raised
  | indexError
  | valueError
  /-- PostgreSQL refuses a row. -/
  | dataError
  deriving DecidableEq, Repr

/-- The two functions of SciPy. -/
structure Scipy (F : Type) where
  /-- `stats.ks_2samp`: the statistic and the p-value. -/
  ks2samp : List F → List F → F × F
  jensenshannon : List F → List F → F

variable {F : Type} [Numpy F]

def binEdges (reference : List F) (nBins : Nat) : Except Raised (List F) :=
  match (Numpy.linspace 0 (Numpy.ofInt 100) (nBins + 1)).mapM (Numpy.percentile reference) with
  | none => .error .indexError
  | some quantiles =>
    match Numpy.unique quantiles with
    | first :: second :: rest =>
      let edges := (if Binary64.lt 0 first then 0 else first) :: second :: rest
      let last := edges.getLastD 0
      .ok (edges.dropLast ++ [if Binary64.lt last 1 then 1 else last])
    | _ => .ok (Numpy.linspace 0 1 (nBins + 1))

/-- The fractions of a sample in the bins, the empty ones at `eps`. -/
def binFractions (sample edges : List F) : List F :=
  Numpy.replaceZero (Numpy.decimal 1 6)
    ((Numpy.histogram sample edges).map fun n => Numpy.ofInt n / Numpy.ofInt sample.length)

def psiSum (refPct recPct : List F) : F :=
  Numpy.sum (List.zipWith (fun ref rec => (rec - ref) * Numpy.log (rec / ref)) refPct recPct)

def computePsi (reference recent : List F) (nBins : Nat) : Except Raised F := do
  let edges ← binEdges reference nBins
  return psiSum (binFractions reference edges) (binFractions recent edges)

structure KSResult (F : Type) where
  statistic : F
  pvalue : F
  flagged : Bool

def computeKs (S : Scipy F) (reference recent : List F) (pvalueThreshold statisticThreshold : F) :
    KSResult F :=
  let (statistic, pvalue) := S.ks2samp reference recent
  ⟨statistic,pvalue,Binary64.lt pvalue pvalueThreshold && Binary64.lt statisticThreshold statistic⟩

def nBuckets : Nat := 256

/-- The place `counts[i]` of a Python list of length `n`. -/
def pyIndex (n : Nat) (i : Int) : Option Nat :=
  if 0 ≤ i then if i < n then some i.toNat else none
  else if 0 ≤ i + n then some (i + n).toNat else none

/-- The bucket of one hash, or none if it has no two characters. -/
def bucket (hash : String) : Except Raised (Option Nat) :=
  if hash.length ≥ 2 then
    match PyInt.int16 (hash.toList.take 2) with
    | none => .error .valueError
    | some i =>
      match pyIndex nBuckets i with
      | none => .error .indexError
      | some b => .ok (some b)
  else .ok none

def countBuckets (counts : List Nat) : List String → Except Raised (List Nat)
  | [] => .ok counts
  | hash :: hashes => do
    match ← bucket hash with
    | none => countBuckets counts hashes
    | some b => countBuckets (counts.modify b (· + 1)) hashes

def bucketCounts (hashes : List String) : Except Raised (List F) := do
  let counts ← countBuckets (List.replicate nBuckets 0) hashes
  let total := counts.sum
  if total = 0 then return List.replicate nBuckets (1 / Numpy.ofInt nBuckets)
  else return counts.map fun n => Numpy.ofInt n / Numpy.ofInt total

/-- No bucket at zero, and the sum back at one. -/
def smooth (dist : List F) : List F :=
  let dist := Numpy.replaceZero (Numpy.decimal 1 6) dist
  dist.map (· / Numpy.sum dist)

def computeJsOnHashes (S : Scipy F) (referenceHashes recentHashes : List String) :
    Except Raised F := do
  let refDist ← bucketCounts referenceHashes
  let recDist ← bucketCounts recentHashes
  return S.jensenshannon (smooth refDist) (smooth recDist)

/-- The two characters that give the bucket, if there are two, are a number in base 16. -/
def Readable (hash : String) : Prop :=
  2 ≤ hash.length → (PyInt.int16 (hash.toList.take 2)).isSome

instance (hash : String) : Decidable (Readable hash) := inferInstanceAs (Decidable (_ → _))

/-- Two characters make no number beyond the buckets. -/
theorem pyIndex_of_int16 {s : List Char} {v : Int} (two : s.length ≤ 2)
    (h : PyInt.int16 s = some v) : ∃ b, pyIndex nBuckets v = some b := by
  obtain ⟨low, high⟩ := PyInt.int16_bounds h
  have wide : 16 ^ s.length ≤ 256 := Nat.pow_le_pow_right (n := 16) (by omega) two
  have narrow : 16 ^ (s.length - 1) ≤ 16 ^ s.length :=
    Nat.pow_le_pow_right (by omega) (by omega)
  have upper : v < nBuckets := by
    unfold nBuckets
    omega
  have lower : 0 ≤ v + nBuckets := by
    unfold nBuckets
    omega
  unfold pyIndex
  split_ifs
  · exact ⟨_,rfl⟩
  · exact ⟨_,rfl⟩

theorem bucket_of_readable {hash : String} (h : Readable hash) : ∃ b, bucket hash = .ok b := by
  unfold bucket
  split_ifs with two
  · obtain ⟨v, hv⟩ := Option.isSome_iff_exists.mp (h two)
    obtain ⟨b, hb⟩ := pyIndex_of_int16 (List.length_take_le 2 _) hv
    exact ⟨some b,by simp only [hv, hb]⟩
  · exact ⟨none,rfl⟩

theorem bucket_of_not_readable {hash : String} (h : ¬Readable hash) :
    bucket hash = .error .valueError := by
  simp only [Readable, Classical.not_imp, Option.not_isSome_iff_eq_none] at h
  rw [bucket, if_pos h.1]
  simp only [h.2]

theorem countBuckets_of_readable {hashes : List String} (h : ∀ hash ∈ hashes, Readable hash)
    (counts : List Nat) : ∃ counts', countBuckets counts hashes = .ok counts' := by
  induction hashes generalizing counts with
  | nil => exact ⟨counts,rfl⟩
  | cons hash hashes ih =>
    obtain ⟨b, hb⟩ := bucket_of_readable (h hash List.mem_cons_self)
    have rest := ih fun x hx => h x (List.mem_cons_of_mem hash hx)
    rw [countBuckets, hb]
    cases b with
    | none => exact rest counts
    | some b => exact rest (counts.modify b (· + 1))

/-- One hash that is no number fails the whole list. -/
theorem countBuckets_of_not_readable {hashes : List String} {hash : String} (hm : hash ∈ hashes)
    (h : ¬Readable hash) (counts : List Nat) :
    countBuckets counts hashes = .error .valueError := by
  induction hashes generalizing counts with
  | nil => cases hm
  | cons x hashes ih =>
    rw [countBuckets]
    by_cases hx : Readable x
    · obtain ⟨b, hb⟩ := bucket_of_readable hx
      have rest : hash ∈ hashes := by
        obtain rfl | rest := List.mem_cons.mp hm
        · exact absurd hx h
        · exact rest
      rw [hb]
      cases b with
      | none => exact ih rest counts
      | some b => exact ih rest (counts.modify b (· + 1))
    · rw [bucket_of_not_readable hx]
      rfl

theorem bucketCounts_of_readable {hashes : List String} (h : ∀ hash ∈ hashes, Readable hash) :
    ∃ dist : List F, bucketCounts hashes = .ok dist := by
  obtain ⟨counts, hc⟩ := countBuckets_of_readable h (List.replicate nBuckets 0)
  unfold bucketCounts
  rw [hc]
  change ∃ dist : List F, (if counts.sum = 0 then _ else _) = Except.ok dist
  split_ifs
  · exact ⟨_,rfl⟩
  · exact ⟨_,rfl⟩

theorem bucketCounts_of_not_readable {hashes : List String} {hash : String} (hm : hash ∈ hashes)
    (h : ¬Readable hash) : (bucketCounts hashes : Except Raised (List F)) = .error .valueError := by
  unfold bucketCounts
  rw [countBuckets_of_not_readable hm h]
  rfl

theorem computeJs_of_readable (S : Scipy F) {referenceHashes recentHashes : List String}
    (h : ∀ hash ∈ referenceHashes ++ recentHashes, Readable hash) :
    ∃ v, computeJsOnHashes S referenceHashes recentHashes = .ok v := by
  obtain ⟨p, hp⟩ := bucketCounts_of_readable (F := F) fun x hx => h x (List.mem_append_left _ hx)
  obtain ⟨q, hq⟩ := bucketCounts_of_readable (F := F) fun x hx => h x (List.mem_append_right _ hx)
  refine ⟨S.jensenshannon (smooth p) (smooth q),?_⟩
  rw [computeJsOnHashes, hp, hq]
  rfl

theorem computeJs_of_not_readable (S : Scipy F) {referenceHashes recentHashes : List String}
    {hash : String} (hm : hash ∈ referenceHashes ++ recentHashes) (h : ¬Readable hash) :
    computeJsOnHashes S referenceHashes recentHashes = .error .valueError := by
  by_cases all : ∀ x ∈ referenceHashes, Readable x
  · have later : hash ∈ recentHashes := by
      obtain first | later := List.mem_append.mp hm
      · exact absurd (all hash first) h
      · exact later
    obtain ⟨p, hp⟩ := bucketCounts_of_readable (F := F) all
    rw [computeJsOnHashes, hp, bucketCounts_of_not_readable later h]
    rfl
  · obtain ⟨x, hx, bad⟩ : ∃ x ∈ referenceHashes, ¬Readable x := by simpa using all
    rw [computeJsOnHashes, bucketCounts_of_not_readable hx bad]
    rfl

end FraudPlatform.Drift
