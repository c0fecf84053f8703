import Mathlib.Data.Rat.Floor
import Mathlib.Tactic.Linarith

namespace FraudPlatform.Router

structure State where
  canaryEnabled : Bool
  challengerTrafficPercent : Int
  shadowPercent : Int
  deriving DecidableEq, Repr

inductive RouteDecision
  | champion
  | challenger
  deriving DecidableEq, Repr

/-- The live upstream of a draw `r`, and whether the request is shadowed. -/
def State.decide (st : State) (r : ℚ) : RouteDecision × Bool :=
  let live :=
    if st.canaryEnabled ∧ r * 100 < st.challengerTrafficPercent then RouteDecision.challenger
    else RouteDecision.champion
  -- Under canary both paths already run live, so shadow is only needed when canary is off.
  let shadow :=
    if ¬st.canaryEnabled ∧ 0 < st.shadowPercent then Decidable.decide (r * 100 < st.shadowPercent)
    else false
  (live, shadow)

/-- Every draw of `rand.Float64` goes to the champion. -/
def State.ChampionOnly (st : State) : Prop :=
  ∀ r : ℚ, 0 ≤ r → r < 1 → (st.decide r).1 = RouteDecision.champion

theorem State.decide_challenger (st : State) (r : ℚ) :
    (st.decide r).1 = RouteDecision.challenger ↔
      st.canaryEnabled ∧ r * 100 < st.challengerTrafficPercent := by
  by_cases h : st.canaryEnabled ∧ r * 100 < st.challengerTrafficPercent <;>
    simp [State.decide, h]

theorem State.decide_champion (st : State) (r : ℚ) :
    (st.decide r).1 = RouteDecision.champion ↔
      ¬(st.canaryEnabled ∧ r * 100 < st.challengerTrafficPercent) := by
  rw [← st.decide_challenger r]
  cases (st.decide r).1 <;> simp

/-- The lowest draw decides: a positive percentage is enough to reach the challenger. -/
theorem State.championOnly_iff (st : State) :
    st.ChampionOnly ↔ ¬(st.canaryEnabled ∧ 0 < st.challengerTrafficPercent) := by
  constructor
  · rintro h ⟨he, hp⟩
    apply (st.decide_champion 0).mp (h 0 le_rfl (by norm_num))
    refine ⟨he, ?_⟩
    rw [zero_mul]
    exact_mod_cast hp
  · intro h r hr _
    rw [st.decide_champion r]
    rintro ⟨he, hlt⟩
    apply h
    refine ⟨he, ?_⟩
    have pos : (0 : ℚ) < st.challengerTrafficPercent := by linarith
    exact_mod_cast pos

instance (st : State) : Decidable st.ChampionOnly :=
  decidable_of_iff _ st.championOnly_iff.symm

theorem State.championOnly_of_disabled {st : State} (h : st.canaryEnabled = false) :
    st.ChampionOnly := by
  rw [st.championOnly_iff]
  simp [h]

end FraudPlatform.Router
