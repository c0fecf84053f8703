import FraudPlatform.Drift.Silenced
import FraudPlatform.Framework.Replay
import FraudPlatform.Shadow.Comparator

namespace FraudPlatform.Monitoring

open Framework Drift Shadow

variable {F : Type}

theorem countP_alert_le (c : Prop) [Decidable c] (a : DriftAlert F) (d : String) :
    (if c then [a] else []).countP (fun a => a.detectorName = d) ≤
      if a.detectorName = d then 1 else 0 := by
  by_cases hd : a.detectorName = d
  · split_ifs
    · simp [hd]
    · exact Nat.zero_le _
  · split_ifs
    · simp [hd]
    · exact Nat.zero_le _

theorem eq_of_mem_alert {c : Prop} [Decidable c] {a b : DriftAlert F}
    (h : a ∈ if c then [b] else []) : a = b := by
  split_ifs at h
  · exact List.mem_singleton.mp h
  · cases h

variable [Numpy F]

/-- A drift check, a crash before the sleep, and the check of the restarted process. -/
def driftTwice (S : Scipy F) (cfg : DriftCheck F) (predictions : List (Prediction F))
    (t : AlertTable F) (t₁ t₂ : Int) : AlertTable F :=
  (runDriftCheck S cfg predictions (runDriftCheck S cfg predictions t t₁).1 t₂).1

/-- The same of the shadow comparator. -/
def summaryTwice (comparisons : List (ShadowComparisonRow F)) (windowHours : Int)
    (t : SummaryTable F) (t₁ t₂ : Int) : SummaryTable F :=
  (computeShadowSummary comparisons (computeShadowSummary comparisons t windowHours t₁).1
    windowHours t₂).1

variable {S : Scipy F} {cfg : DriftCheck F} {predictions : List (Prediction F)} {now : Int}

/-- What is written is the alert of PSI, of KS and of JS, as far as they fired. -/
theorem written_cases (S : Scipy F) (cfg : DriftCheck F) (predictions : List (Prediction F))
    (now : Int) : cfg.written S predictions now = [] ∨
      ∃ psi ks js, cfg.written S predictions now =
        cfg.psiAlert now (cfg.reference predictions now).length
          (cfg.recent predictions now).length psi ++ cfg.ksAlert now ks ++
        cfg.jsAlert now (cfg.reference predictions now).length
          (cfg.recent predictions now).length js := by
  unfold DriftCheck.written
  split_ifs
  · exact Or.inl rfl
  · cases hp : cfg.psi predictions now with
    | error e =>
      obtain ⟨e', he⟩ := alerts_error (S := S) (Or.inl ⟨e,hp⟩)
      rw [he]
      exact Or.inl rfl
    | ok psi =>
      cases hj : cfg.js S predictions now with
      | error e =>
        obtain ⟨e', he⟩ := alerts_error (Or.inr ⟨e,hj⟩)
        rw [he]
        exact Or.inl rfl
      | ok js =>
        have alerts := alerts_of_js hp hj
        rw [DriftCheck.scoreAlerts, hp] at alerts
        rw [alerts]
        dsimp only
        split_ifs
        · exact Or.inr ⟨psi,cfg.ks S predictions now,js,rfl⟩
        · exact Or.inl rfl

/-- One check writes at most one alert of a detector. -/
theorem written_countP (S : Scipy F) (cfg : DriftCheck F) (predictions : List (Prediction F))
    (now : Int) (d : String) :
    (cfg.written S predictions now).countP (fun a => a.detectorName = d) ≤ 1 := by
  obtain none | ⟨psi, ks, js, all⟩ := written_cases S cfg predictions now
  · rw [none]
    exact Nat.zero_le 1
  · rw [all, List.countP_append, List.countP_append]
    have one : (if "psi" = d then 1 else 0) + (if "ks" = d then 1 else 0) +
        (if "js" = d then 1 else 0) ≤ 1 := by
      by_cases first : "psi" = d
      · subst first
        decide
      · by_cases second : "ks" = d
        · subst second
          decide
        · rw [if_neg first, if_neg second]
          split_ifs <;> omega
    refine Nat.le_trans (Nat.add_le_add (Nat.add_le_add ?_ ?_) ?_) one
    · exact countP_alert_le _ _ d
    · exact countP_alert_le _ _ d
    · exact countP_alert_le _ _ d

/-- The id of an alert is that of its detector and its window. -/
theorem written_id {a : DriftAlert F} (ha : a ∈ cfg.written S predictions now) :
    a.detectorName ∈ ["psi","ks","js"] ∧
      a.alertId = deterministicAlertId a.detectorName (cfg.recentStart now) now := by
  obtain none | ⟨psi, ks, js, all⟩ := written_cases S cfg predictions now
  · rw [none] at ha
    cases ha
  · rw [all] at ha
    obtain score | third := List.mem_append.mp ha
    · obtain first | second := List.mem_append.mp score
      · rw [eq_of_mem_alert first]
        exact ⟨by simp,rfl⟩
      · rw [eq_of_mem_alert second]
        exact ⟨by simp,rfl⟩
    · rw [eq_of_mem_alert third]
      exact ⟨by simp,rfl⟩

theorem cons_eq_singleton {α : Type} {before after : List α} {a x : α}
    (h : before ++ a :: after = [x]) : before = [] ∧ a = x ∧ after = [] := by
  cases before with
  | nil => simpa using h
  | cons b before => simp at h

theorem summarize_id (windowHours now : Int) (r : ShadowComparisonRow F)
    (rest : List (ShadowComparisonRow F)) : (summarize windowHours now r rest).summaryId =
      deterministicSummaryId (windowStart windowHours now) now := rfl

/-- Two windows with rows leave two summaries unless an id is met. -/
theorem summary_gains_iff (comparisons : List (ShadowComparisonRow F)) (windowHours : Int)
    (u : SummaryTable F) (t₁ t₂ : Int) :
    (summaryTwice comparisons windowHours u t₁ t₂).rows.length ≤ u.rows.length + 1 ↔
      (window comparisons windowHours t₁ ≠ [] → window comparisons windowHours t₂ ≠ [] →
        u.find? (deterministicSummaryId (windowStart windowHours t₁) t₁) ≠ none ∨
        u.find? (deterministicSummaryId (windowStart windowHours t₂) t₂) ≠ none ∨
        deterministicSummaryId (windowStart windowHours t₁) t₁ =
          deterministicSummaryId (windowStart windowHours t₂) t₂) := by
  have single (now : Int) : (written comparisons windowHours now).length ≤ 1 := by
    unfold written
    split
    · exact Nat.zero_le 1
    · exact Nat.le_refl 1
  have twice := Table.twice_gains_one u (written comparisons windowHours t₁)
    (written comparisons windowHours t₂) (fun _ => true) (by simpa using single t₁)
    (by simpa using single t₂)
  simp only [List.countP_true] at twice
  rw [summaryTwice, computeShadowSummary_table, computeShadowSummary_table, twice]
  unfold written
  split
  · next h₁ => simp [h₁]
  · next r₁ rest₁ h₁ =>
    split
    · next h₂ => simp [h₂]
    · next r₂ rest₂ h₂ =>
      constructor
      · intro absorbed _ _
        have met := absorbed [] _ [] [] _ [] rfl rfl trivial trivial
        rw [Table.absorbed_nil, Table.Absorbed, List.append_nil, List.map_singleton,
          List.mem_singleton, summarize_id, summarize_id] at met
        exact met.imp_right (Or.imp_right Eq.symm)
      · intro ids before a after before' b after' eq₁ eq₂ _ _
        obtain ⟨rfl, rfl, rfl⟩ := cons_eq_singleton eq₁.symm
        obtain ⟨rfl, rfl, rfl⟩ := cons_eq_singleton eq₂.symm
        have met := ids (by simp [h₁]) (by simp [h₂])
        rw [Table.absorbed_nil, Table.Absorbed, List.append_nil, List.map_singleton,
          List.mem_singleton, summarize_id, summarize_id]
        exact met.imp_right (Or.imp_right Eq.symm)

theorem drift_gains_iff (S : Scipy F) (cfg : DriftCheck F) (predictions : List (Prediction F))
    (t : AlertTable F) (t₁ t₂ : Int) :
    (∀ d, (driftTwice S cfg predictions t t₁ t₂).rows.countP (fun a => a.detectorName = d) ≤
        t.rows.countP (fun a => a.detectorName = d) + 1) ↔
      ∀ before a after before' b after', cfg.written S predictions t₁ = before ++ a :: after →
        cfg.written S predictions t₂ = before' ++ b :: after' →
        a.detectorName = b.detectorName →
        t.Absorbed before a ∨ t.Absorbed (cfg.written S predictions t₁ ++ before') b := by
  rw [driftTwice, runDriftCheck_table, runDriftCheck_table]
  have each (d : String) := Table.twice_gains_one t (cfg.written S predictions t₁)
    (cfg.written S predictions t₂) (fun a => a.detectorName = d)
    (written_countP S cfg predictions t₁ d) (written_countP S cfg predictions t₂ d)
  constructor
  · intro gains before a after before' b after' eq₁ eq₂ same
    exact (each b.detectorName).mp (gains _) before a after before' b after' eq₁ eq₂
      (by simpa using same) (by simp)
  · intro absorbed d
    refine (each d).mpr fun before a after before' b after' eq₁ eq₂ pa pb => ?_
    simp only [decide_eq_true_eq] at pa pb
    exact absorbed before a after before' b after' eq₁ eq₂ (pa.trans pb.symm)

/-- Two checks leave at most one row of each detector, and two summaries at most one, exactly
when of any two rows of a kind one meets its id: in the table, or in a row written before it. -/
theorem restart_idempotent_iff (S : Scipy F) (cfg : DriftCheck F)
    (predictions : List (Prediction F)) (t : AlertTable F)
    (comparisons : List (ShadowComparisonRow F)) (windowHours : Int) (u : SummaryTable F)
    (t₁ t₂ : Int) :
    ((∀ d, (driftTwice S cfg predictions t t₁ t₂).rows.countP (fun a => a.detectorName = d) ≤
        t.rows.countP (fun a => a.detectorName = d) + 1) ↔
      ∀ before a after before' b after', cfg.written S predictions t₁ = before ++ a :: after →
        cfg.written S predictions t₂ = before' ++ b :: after' →
        a.detectorName = b.detectorName →
        t.Absorbed before a ∨ t.Absorbed (cfg.written S predictions t₁ ++ before') b) ∧
    ((summaryTwice comparisons windowHours u t₁ t₂).rows.length ≤ u.rows.length + 1 ↔
      (window comparisons windowHours t₁ ≠ [] → window comparisons windowHours t₂ ≠ [] →
        u.find? (deterministicSummaryId (windowStart windowHours t₁) t₁) ≠ none ∨
        u.find? (deterministicSummaryId (windowStart windowHours t₂) t₂) ≠ none ∨
        deterministicSummaryId (windowStart windowHours t₁) t₁ =
          deterministicSummaryId (windowStart windowHours t₂) t₂)) :=
  ⟨drift_gains_iff S cfg predictions t t₁ t₂,summary_gains_iff comparisons windowHours u t₁ t₂⟩

section Sample

/-- In a check in which KS fires, its alert comes after at most that of PSI. -/
theorem written_of_ks (predictions : List (Prediction F)) (now : Int) (hS : S.Documented)
    (enough : cfg.skipped predictions now = false)
    (rows : cfg.reference predictions now ≠ [])
    (readable : ∀ hash ∈ cfg.hashes predictions now, Readable hash)
    (fired : (cfg.ks S predictions now).flagged = true) :
    ∃ before ks after, cfg.written S predictions now = before ++ ks :: after ∧
      ks.detectorName = "ks" ∧ ∀ a ∈ before, a.detectorName = "psi" := by
  obtain ⟨rest, written⟩ := written_eq_append hS enough rows readable
  rw [DriftCheck.scoreAlerts, DriftCheck.ksAlert, if_pos fired] at written
  refine ⟨_,_,rest,written.trans (List.append_assoc _ _ _),rfl,fun a ha => ?_⟩
  split at ha
  · rw [eq_of_mem_alert ha]
  · cases ha

noncomputable def oneComparison : List (ShadowComparisonRow ℝ) :=
  [⟨1,"p1","p2",0,1,false,true,4000000000⟩]

theorem ids_differ :
    (∀ d ∈ ["psi","ks","js"], deterministicAlertId d 3600000000 7200000000 ≠
      deterministicAlertId "ks" 3601000000 7201000000) ∧
    deterministicAlertId "psi" 3600000000 7200000000 ≠
      deterministicAlertId "ks" 3600000000 7200000000 ∧
    deterministicAlertId "psi" 3601000000 7201000000 ≠
      deterministicAlertId "ks" 3601000000 7201000000 ∧
    deterministicSummaryId 3600000000 7200000000 ≠ deterministicSummaryId 3601000000 7201000000 := by
  decide +kernel

theorem shifted_rows (now : Int)
    (reference : (defaultCheck.reference (shifted "aa") now).length = 5) :
    defaultCheck.reference (shifted "aa") now ≠ [] :=
  List.ne_nil_of_length_eq_add_one reference

theorem shifted_readable (now : Int) :
    ∀ hash ∈ defaultCheck.hashes (shifted "aa") now, Readable hash := by
  intro hash hm
  obtain ⟨p, hp, _, rfl⟩ := mem_hashes.mp hm
  have all : ∀ p ∈ shifted "aa", p.featuresHash = "aa" := by simp [shifted, scoredAt]
  rw [all p hp]
  decide

/-- An alert of KS that only alerts of PSI come before meets its id in none of them. -/
theorem ks_fresh {a : DriftAlert F} {before after : List (DriftAlert F)}
    (written : cfg.written S predictions now = before ++ a :: after)
    (ks : a.detectorName = "ks") (psi : ∀ c ∈ before, c.detectorName = "psi")
    (differ : deterministicAlertId "psi" (cfg.recentStart now) now ≠
      deterministicAlertId "ks" (cfg.recentStart now) now) :
    a.alertId ∉ before.map DriftAlert.alertId := by
  intro met
  obtain ⟨c, hc, same⟩ := List.mem_map.mp met
  have idA := (written_id (a := a) (by rw [written]; simp)).2
  have idC := (written_id (a := c) (by rw [written]; exact List.mem_append_left _ hc)).2
  rw [ks] at idA
  rw [psi c hc] at idC
  exact differ (idC.symm.trans (same.trans idA))

theorem drift_duplicates : ¬∀ d, (driftTwice exactScipy defaultCheck (shifted "aa") .empty
      7200000000 7201000000).rows.countP (fun a => a.detectorName = d) ≤
    (Table.empty : AlertTable ℝ).rows.countP (fun a => a.detectorName = d) + 1 := by
  obtain ⟨across, within₁, within₂, _⟩ := ids_differ
  rw [drift_gains_iff]
  intro absorbed
  obtain ⟨before, a, after, eq₁, name₁, psi₁⟩ := written_of_ks (shifted "aa") 7200000000
    exactScipy_documented rfl (shifted_rows _ rfl) (shifted_readable _) (shifted_ks rfl rfl)
  obtain ⟨before', b, after', eq₂, name₂, psi₂⟩ := written_of_ks (shifted "aa") 7201000000
    exactScipy_documented rfl (shifted_rows _ rfl) (shifted_readable _) (shifted_ks rfl rfl)
  obtain (old | met) | (old | met) := absorbed before a after before' b after' eq₁ eq₂
    (name₁.trans name₂.symm)
  · exact old rfl
  · exact ks_fresh eq₁ name₁ psi₁ within₁ met
  · exact old rfl
  · rw [List.map_append] at met
    obtain first | second := List.mem_append.mp met
    · obtain ⟨c, hc, same⟩ := List.mem_map.mp first
      obtain ⟨name, idC⟩ := written_id hc
      have idB := (written_id (a := b) (by rw [eq₂]; simp)).2
      rw [name₂] at idB
      exact across _ name (idC.symm.trans (same.trans idB))
    · exact ks_fresh eq₂ name₂ psi₂ within₂ second

theorem summary_duplicates : ¬(summaryTwice oneComparison 1 .empty 7200000000
      7201000000).rows.length ≤ (Table.empty : SummaryTable ℝ).rows.length + 1 := by
  obtain ⟨_, _, _, differ⟩ := ids_differ
  have rows (now : Int) (one : (window oneComparison 1 now).length = 1) :
      window oneComparison 1 now ≠ [] := List.ne_nil_of_length_eq_add_one one
  rw [summary_gains_iff]
  intro met
  obtain old | old | same := met (rows _ rfl) (rows _ rfl)
  · exact old rfl
  · exact old rfl
  · exact differ same

end Sample

/-- A restart one second later writes a second alert and a second summary. -/
theorem restart_duplicates :
    (¬∀ d, (driftTwice exactScipy defaultCheck (shifted "aa") .empty 7200000000
        7201000000).rows.countP (fun a => a.detectorName = d) ≤
      (Table.empty : AlertTable ℝ).rows.countP (fun a => a.detectorName = d) + 1) ∧
    ¬(summaryTwice oneComparison 1 .empty 7200000000 7201000000).rows.length ≤
      (Table.empty : SummaryTable ℝ).rows.length + 1 :=
  ⟨drift_duplicates,summary_duplicates⟩

end FraudPlatform.Monitoring
