import FraudPlatform.Router.Routing
import Mathlib.Tactic.FieldSimp

namespace FraudPlatform.Router

/-- The `N` evenly spaced draws of `[0, 1)`. -/
def draws (N : Nat) : List ℚ := (List.range N).map fun i : Nat => (i : ℚ) / N

/-- The draws that send the live request to the challenger. -/
def State.challengerDraws (st : State) (N : Nat) : List ℚ :=
  (draws N).filter fun r => Decidable.decide ((st.decide r).1 = RouteDecision.challenger)

/-- The draws that ask for a shadow request. -/
def State.shadowDraws (st : State) (N : Nat) : List ℚ :=
  (draws N).filter fun r => (st.decide r).2

/-- The draws below `p` percent. -/
def drawsBelow (N : Nat) (p : Int) : List ℚ :=
  (draws N).filter fun r : ℚ => Decidable.decide (r * 100 < (p : ℚ))

theorem State.decide_shadow (st : State) (r : ℚ) :
    (st.decide r).2 = true ↔
      st.canaryEnabled = false ∧ 0 < st.shadowPercent ∧ r * 100 < st.shadowPercent := by
  by_cases h : ¬st.canaryEnabled ∧ 0 < st.shadowPercent
  · simp [State.decide, h]
  · have off : ¬(st.canaryEnabled = false ∧ 0 < st.shadowPercent) := by simpa using h
    rw [← and_assoc]
    simp [State.decide, off]

theorem draws_nonneg {N : Nat} {r : ℚ} (h : r ∈ draws N) : 0 ≤ r := by
  simp only [draws, List.mem_map] at h
  obtain ⟨i, _, rfl⟩ := h
  exact div_nonneg i.cast_nonneg N.cast_nonneg

theorem filter_range_lt {k N : Nat} (h : k ≤ N) :
    (List.range N).filter (fun i => Decidable.decide (i < k)) = List.range k := by
  obtain ⟨d, rfl⟩ := Nat.exists_eq_add_of_le h
  rw [List.range_add, List.filter_append, List.filter_eq_self.mpr, List.filter_eq_nil_iff.mpr]
  · simp
  · simp
  · intro i hi
    simpa using hi

/-- A draw is below `p` percent exactly when its number is below the ceiling of `N * p / 100`. -/
theorem draw_lt_iff {N : Nat} (hN : 1 ≤ N) (p : Int) (i : Nat) :
    (i : ℚ) / N * 100 < p ↔ (i : Int) < ⌈(N * p / 100 : ℚ)⌉ := by
  have pos : (0 : ℚ) < N := by exact_mod_cast hN
  rw [Int.lt_ceil, Int.cast_natCast, lt_div_iff₀ (by norm_num), div_mul_eq_mul_div,
    div_lt_iff₀ pos, mul_comm (p : ℚ)]

/-- The counting law: of `N` evenly spaced draws exactly the ceiling of `N * p / 100` are below
`p` percent. -/
theorem length_drawsBelow {N : Nat} (hN : 1 ≤ N) {p : Int} (h0 : 0 ≤ p) (h100 : p ≤ 100) :
    ((drawsBelow N p).length : Int) = ⌈(N * p / 100 : ℚ)⌉ := by
  have pq0 : (0 : ℚ) ≤ p := by exact_mod_cast h0
  have pq100 : (p : ℚ) ≤ 100 := by exact_mod_cast h100
  have low : 0 ≤ ⌈(N * p / 100 : ℚ)⌉ := Int.ceil_nonneg (by positivity)
  have high : ⌈(N * p / 100 : ℚ)⌉ ≤ N := by
    rw [Int.ceil_le, div_le_iff₀ (by norm_num), Int.cast_natCast]
    exact mul_le_mul_of_nonneg_left pq100 N.cast_nonneg
  obtain ⟨k, hk⟩ := Int.eq_ofNat_of_zero_le low
  have below : ∀ i : Nat, (i : ℚ) / N * 100 < p ↔ i < k := by
    intro i
    rw [draw_lt_iff hN, hk]
    exact Int.ofNat_lt
  have hkN : k ≤ N := by omega
  simp only [drawsBelow, draws, List.filter_map, List.length_map, Function.comp_def, below]
  rw [filter_range_lt hkN, List.length_range, hk]

theorem State.challengerDraws_eq (st : State) (N : Nat) :
    st.challengerDraws N =
      if st.canaryEnabled then drawsBelow N st.challengerTrafficPercent else [] := by
  simp only [State.challengerDraws, State.decide_challenger]
  cases st.canaryEnabled <;> simp [drawsBelow]

/-- The guard on a positive percentage adds nothing: no draw is below zero percent. -/
theorem State.shadowDraws_eq (st : State) (N : Nat) :
    st.shadowDraws N = if st.canaryEnabled then [] else drawsBelow N st.shadowPercent := by
  have same : ∀ r ∈ draws N, (st.decide r).2 = (!st.canaryEnabled
      && Decidable.decide (r * 100 < (st.shadowPercent : ℚ))) := by
    intro r hr
    have guard : r * 100 < (st.shadowPercent : ℚ) → 0 < st.shadowPercent := by
      intro lt
      have pos : (0 : ℚ) < st.shadowPercent := by linarith [draws_nonneg hr]
      exact_mod_cast pos
    rw [Bool.eq_iff_iff, st.decide_shadow r]
    simpa using fun _ => guard
  rw [State.shadowDraws, List.filter_congr same]
  cases st.canaryEnabled <;> simp [drawsBelow]

theorem drawsBelow_sublist (N : Nat) {p q : Int} (h : p ≤ q) :
    (drawsBelow N p).Sublist (drawsBelow N q) := by
  apply List.monotone_filter_right
  intro r lt
  have pq : (p : ℚ) ≤ q := by exact_mod_cast h
  simp only [decide_eq_true_eq] at lt ⊢
  exact lt_of_lt_of_le lt pq

/-- How `Decide` splits the traffic: both shares are exact, no draw is live on the challenger and
shadowed at once, and a raised percentage keeps every draw it had. -/
theorem traffic_split_exact (st : State)
    (hc : 0 ≤ st.challengerTrafficPercent ∧ st.challengerTrafficPercent ≤ 100)
    (hs : 0 ≤ st.shadowPercent ∧ st.shadowPercent ≤ 100) (N : Nat) (hN : 1 ≤ N) :
    ((st.challengerDraws N).length : Int)
        = (if st.canaryEnabled then ⌈(N * st.challengerTrafficPercent / 100 : ℚ)⌉ else 0) ∧
    ((st.shadowDraws N).length : Int)
        = (if st.canaryEnabled then 0 else ⌈(N * st.shadowPercent / 100 : ℚ)⌉) ∧
    (∀ r : ℚ, (st.decide r).1 = RouteDecision.challenger → (st.decide r).2 = false) ∧
    (∀ p : Int, st.challengerTrafficPercent ≤ p → (st.challengerDraws N).Sublist
        (State.challengerDraws { st with challengerTrafficPercent := p } N)) ∧
    (∀ p : Int, st.shadowPercent ≤ p → (st.shadowDraws N).Sublist
        (State.shadowDraws { st with shadowPercent := p } N)) := by
  refine ⟨?_, ?_, ?_, ?_, ?_⟩
  · rw [st.challengerDraws_eq]
    cases st.canaryEnabled
    · simp
    · simpa using length_drawsBelow hN hc.1 hc.2
  · rw [st.shadowDraws_eq]
    cases st.canaryEnabled
    · simpa using length_drawsBelow hN hs.1 hs.2
    · simp
  · intro r live
    have enabled := ((st.decide_challenger r).mp live).1
    rw [← Bool.not_eq_true, st.decide_shadow r]
    simp [enabled]
  · intro p le
    rw [State.challengerDraws_eq, State.challengerDraws_eq]
    cases st.canaryEnabled
    · simp
    · simpa using drawsBelow_sublist N le
  · intro p le
    rw [State.shadowDraws_eq, State.shadowDraws_eq]
    cases st.canaryEnabled
    · simpa using drawsBelow_sublist N le
    · simp

theorem traffic_split_exact_third :
    ((State.challengerDraws ⟨true,33,0⟩ 10).length : Int) = 4 := by
  rw [(traffic_split_exact ⟨true,33,0⟩ (by decide) (by decide) 10 (by decide)).1]
  norm_num

end FraudPlatform.Router
