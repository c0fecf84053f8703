import FraudPlatform.Framework.Fallible
import FraudPlatform.Framework.Journal
import FraudPlatform.Framework.Remote
import FraudPlatform.Monitoring.Restart

namespace FraudPlatform.Monitoring

open Framework Drift Shadow

variable {F : Type}

theorem fired_of_mem_alert {c : Prop} [Decidable c] {a b : DriftAlert F}
    (h : a ∈ if c then [b] else []) : c := by
  by_contra quiet
  rw [if_neg quiet] at h
  cases h

/-- The tables that the two loops read and write. -/
structure Monitored (F : Type) where
  predictions : List (Prediction F)
  shadowComparisons : List (ShadowComparisonRow F)
  driftAlerts : AlertTable F
  shadowSummaries : SummaryTable F

/-- What happens to the tables. A turn of a loop ends in a write that may fail on the way, and
the exception is logged; after a restart a turn may have another configuration. -/
inductive MonitoredEvent (F : Type)
  | predict (p : Prediction F)
  | compare (c : ShadowComparisonRow F)
  | driftCheck (cfg : DriftCheck F) (now : Int) (write : Fate)
  | shadowSummary (windowHours now : Int) (write : Fate)

variable [Numpy F]

def Monitored.step (S : Scipy F) (s : Monitored F) : MonitoredEvent F → Monitored F
  | .predict p => { s with predictions := s.predictions ++ [p] }
  | .compare c => { s with shadowComparisons := s.shadowComparisons ++ [c] }
  | .driftCheck cfg now write =>
    { s with
      driftAlerts := (write.call (fun t => runDriftCheck S cfg s.predictions t now)
        s.driftAlerts).1 }
  | .shadowSummary windowHours now write =>
    { s with
      shadowSummaries := (write.call (fun t => computeShadowSummary s.shadowComparisons t
        windowHours now) s.shadowSummaries).1 }

/-- The alerts that an event brings to the table. -/
def offeredAlerts (S : Scipy F) (s : Monitored F) : MonitoredEvent F → List (DriftAlert F)
  | .driftCheck cfg now write => if write.acts then cfg.written S s.predictions now else []
  | _ => []

def offeredSummaries (s : Monitored F) : MonitoredEvent F → List (ShadowSummary F)
  | .shadowSummary windowHours now write =>
    if write.acts then written s.shadowComparisons windowHours now else []
  | _ => []

theorem offered_alerts (S : Scipy F) :
    Table.Offered (Monitored.step S) Monitored.driftAlerts (offeredAlerts S) := by
  intro s e
  cases e with
  | driftCheck cfg now write =>
    simp only [Monitored.step, offeredAlerts, Fate.call_state]
    split_ifs
    · exact runDriftCheck_table S cfg s.predictions s.driftAlerts now
    · rfl
  | _ => rfl

theorem offered_summaries (S : Scipy F) :
    Table.Offered (Monitored.step S) Monitored.shadowSummaries offeredSummaries := by
  intro s e
  cases e with
  | shadowSummary windowHours now write =>
    simp only [Monitored.step, offeredSummaries, Fate.call_state]
    split_ifs
    · exact computeShadowSummary_table s.shadowComparisons s.shadowSummaries windowHours now
    · rfl
  | _ => rfl

/-- The detector that an alert names found what the alert says. -/
inductive Detected (S : Scipy F) (cfg : DriftCheck F) (predictions : List (Prediction F))
    (now : Int) (a : DriftAlert F) : Prop
  | psi (detector : a.detectorName = "psi") (metric : a.metricName = "psi")
    (value : cfg.psi predictions now = .ok a.metricValue)
    (threshold : a.threshold = cfg.psiWarningThreshold)
    (fired : Binary64.le a.threshold a.metricValue = true)
    (severity : a.severity =
      if Binary64.le cfg.psiCriticalThreshold a.metricValue then "critical" else "warning")
  | ks (detector : a.detectorName = "ks") (metric : a.metricName = "ks_statistic")
    (value : (cfg.ks S predictions now).statistic = a.metricValue)
    (threshold : a.threshold = cfg.ksStatisticThreshold)
    (fired : Binary64.lt a.threshold a.metricValue = true)
    (significant :
      Binary64.lt (cfg.ks S predictions now).pvalue cfg.ksPvalueThreshold = true)
    (severity : a.severity = "warning")
  | js (detector : a.detectorName = "js") (metric : a.metricName = "js_divergence")
    (value : cfg.js S predictions now = .ok a.metricValue)
    (threshold : a.threshold = cfg.jsThreshold)
    (fired : Binary64.lt a.threshold a.metricValue = true) (severity : a.severity = "warning")

/-- An alert that a check at the time `now` had a reason to write. -/
structure Justified (S : Scipy F) (cfg : DriftCheck F) (predictions : List (Prediction F))
    (now : Int) (a : DriftAlert F) : Prop where
  samples : cfg.minSamples ≤ (cfg.reference predictions now).length ∧
    cfg.minSamples ≤ (cfg.recent predictions now).length
  window : a.windowStart = cfg.recentStart now ∧ a.windowEnd = now
  reference : a.referenceWindowStart = cfg.referenceStart ∧ a.referenceWindowEnd = cfg.referenceEnd
  payload : a.payload.finite = true
  detected : Detected S cfg predictions now a

section Written

variable {S : Scipy F} {cfg : DriftCheck F} {predictions : List (Prediction F)} {now : Int}
  {alerts : List (DriftAlert F)} {a : DriftAlert F}

theorem alerts_eq_ok (h : cfg.alerts S predictions now = .ok alerts) :
    ∃ psi js, cfg.psi predictions now = .ok psi ∧ cfg.js S predictions now = .ok js ∧
      alerts = cfg.psiAlert now (cfg.reference predictions now).length
          (cfg.recent predictions now).length psi ++ cfg.ksAlert now (cfg.ks S predictions now) ++
        cfg.jsAlert now (cfg.reference predictions now).length
          (cfg.recent predictions now).length js := by
  obtain ⟨psi, hp, rest⟩ := bind_eq_ok.mp h
  obtain ⟨js, hj, rest⟩ := bind_eq_ok.mp rest
  exact ⟨psi,js,hp,hj,(Except.ok.inj rest).symm⟩

theorem ks_statistic : (cfg.ks S predictions now).flagged = true →
    Binary64.lt (cfg.ks S predictions now).pvalue cfg.ksPvalueThreshold = true ∧
      Binary64.lt cfg.ksStatisticThreshold (cfg.ks S predictions now).statistic = true := by
  intro flagged
  simpa [DriftCheck.ks, computeKs] using flagged

theorem detected_of_mem {psi js : F} {nReference nRecent : Nat}
    (hp : cfg.psi predictions now = .ok psi) (hj : cfg.js S predictions now = .ok js)
    (ha : a ∈ cfg.psiAlert now nReference nRecent psi ++
      cfg.ksAlert now (cfg.ks S predictions now) ++ cfg.jsAlert now nReference nRecent js) :
    Detected S cfg predictions now a ∧ (a.windowStart = cfg.recentStart now ∧ a.windowEnd = now) ∧
      a.referenceWindowStart = cfg.referenceStart ∧ a.referenceWindowEnd = cfg.referenceEnd := by
  obtain score | third := List.mem_append.mp ha
  · obtain first | second := List.mem_append.mp score
    · have fired := fired_of_mem_alert first
      obtain rfl := eq_of_mem_alert first
      exact ⟨.psi rfl rfl hp rfl fired rfl,⟨rfl,rfl⟩,rfl,rfl⟩
    · obtain ⟨significant, fired⟩ := ks_statistic (fired_of_mem_alert second)
      obtain rfl := eq_of_mem_alert second
      exact ⟨.ks rfl rfl rfl rfl fired significant rfl,⟨rfl,rfl⟩,rfl,rfl⟩
  · have fired := fired_of_mem_alert third
    obtain rfl := eq_of_mem_alert third
    exact ⟨.js rfl rfl hj rfl fired rfl,⟨rfl,rfl⟩,rfl,rfl⟩

theorem justified_of_written (ha : a ∈ cfg.written S predictions now) :
    Justified S cfg predictions now a := by
  unfold DriftCheck.written at ha
  split_ifs at ha with skipped
  · cases ha
  · cases hr : cfg.alerts S predictions now with
    | error e =>
      rw [hr] at ha
      cases ha
    | ok alerts =>
      rw [hr] at ha
      dsimp only at ha
      split_ifs at ha with finite
      · obtain ⟨psi, js, hp, hj, rfl⟩ := alerts_eq_ok hr
        obtain ⟨detected, window, reference⟩ := detected_of_mem hp hj ha
        have samples : cfg.minSamples ≤ (cfg.reference predictions now).length ∧
            cfg.minSamples ≤ (cfg.recent predictions now).length := by
          simp only [DriftCheck.skipped, Bool.or_eq_true, decide_eq_true_eq, not_or] at skipped
          omega
        exact ⟨samples,window,reference,List.all_eq_true.mp finite a ha,detected⟩
      · cases ha

end Written

/-- Whatever else goes on, an alert in the table is one that a check found at its time, and no
alert that a check committed is missing from the table later. -/
theorem alerts_justified (S : Scipy F) (s : Monitored F) (es : List (MonitoredEvent F)) :
    (∃ rows, (run (Monitored.step S) s es).driftAlerts.rows = s.driftAlerts.rows ++ rows ∧
      ∀ a ∈ rows, ∃ pre cfg now write post, es = pre ++ .driftCheck cfg now write :: post ∧
        write.acts = true ∧
        Justified S cfg (run (Monitored.step S) s pre).predictions now a) ∧
    ∀ pre cfg now write post, es = pre ++ .driftCheck cfg now write :: post →
      write.acts = true → ∀ a ∈ cfg.written S (run (Monitored.step S) s pre).predictions now,
        ∃ b, (run (Monitored.step S) s es).driftAlerts.find? a.alertId = some b := by
  obtain ⟨rows, grown, origin⟩ := (offered_alerts S).sound s es
  refine ⟨⟨rows,grown,fun a ha => ?_⟩,?_⟩
  · obtain ⟨pre, e, post, eq, offered⟩ := origin a ha
    cases e with
    | driftCheck cfg now write =>
      simp only [offeredAlerts] at offered
      split_ifs at offered with acts
      · exact ⟨pre,cfg,now,write,post,eq,acts,justified_of_written offered⟩
      · cases offered
    | _ => cases offered
  · intro pre cfg now write post eq acts a ha
    rw [eq]
    apply (offered_alerts S).complete
    rw [offeredAlerts, if_pos acts]
    exact ha

/-- The summaries likewise: each is that of the comparisons there were in its window at its
time, and a turn that found any leaves one under its id. -/
theorem summaries_justified (S : Scipy F) (s : Monitored F) (es : List (MonitoredEvent F)) :
    (∃ rows, (run (Monitored.step S) s es).shadowSummaries.rows = s.shadowSummaries.rows ++ rows ∧
      ∀ u ∈ rows, ∃ pre windowHours now write post r rest,
        es = pre ++ .shadowSummary windowHours now write :: post ∧ write.acts = true ∧
        window (run (Monitored.step S) s pre).shadowComparisons windowHours now = r :: rest ∧
        u = summarize windowHours now r rest) ∧
    ∀ pre windowHours now write post, es = pre ++ .shadowSummary windowHours now write :: post →
      write.acts = true →
      window (run (Monitored.step S) s pre).shadowComparisons windowHours now ≠ [] →
        ∃ u, (run (Monitored.step S) s es).shadowSummaries.find?
          (deterministicSummaryId (windowStart windowHours now) now) = some u := by
  obtain ⟨rows, grown, origin⟩ := (offered_summaries S).sound s es
  refine ⟨⟨rows,grown,fun u hu => ?_⟩,?_⟩
  · obtain ⟨pre, e, post, eq, offered⟩ := origin u hu
    cases e with
    | shadowSummary windowHours now write =>
      simp only [offeredSummaries] at offered
      split_ifs at offered with acts
      · unfold written at offered
        split at offered
        · cases offered
        · next r rest found =>
          exact ⟨pre,windowHours,now,write,post,r,rest,eq,acts,found,
            List.mem_singleton.mp offered⟩
      · cases offered
    | _ => cases offered
  · intro pre windowHours now write post eq acts some
    obtain ⟨r, rest, found⟩ := List.exists_cons_of_ne_nil some
    rw [eq, ← summarize_id windowHours now r rest]
    apply (offered_summaries S).complete
    rw [offeredSummaries, if_pos acts, written, found]
    exact List.mem_singleton_self _

end FraudPlatform.Monitoring
