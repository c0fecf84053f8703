import FraudPlatform.Canary.Evaluator
import FraudPlatform.Framework.Exact
import FraudPlatform.Labels.Soundness
import FraudPlatform.Serving.Persist

namespace FraudPlatform.Lineage

open Framework Labels
open Serving (Store Record Persisted PersistAction NewStore)

variable {F : Type}

/-- The two serving containers. -/
inductive Container
  | champion
  | challenger
  deriving DecidableEq, Repr

/-- The prediction logs of both containers, the tables they and the label joiner share, and two
notes: the batches the server took from each log, and the records in the order of the table. -/
structure Fleet (F : Type) where
  stores : Container → Store F
  committed : Container → List (List (Posted (Record F)))
  joiner : Joiner F
  copied : List (Container × Posted (Record F))

inductive FleetEvent (F : Type)
  | serve (c : Container) (a : PersistAction F)
  | select (now : Int) (rows : List Candidate)
  | commit
  | fail

def Fleet.log (s : Fleet F) (c : Container) : Persisted F :=
  ⟨s.stores c,s.joiner.predictions,s.committed c⟩

def Fleet.step (S : Simulator) (s : Fleet F) : FleetEvent F → Fleet F
  | .serve c a =>
    let log := (s.log c).step a
    { stores := Function.update s.stores c log.store
      committed := Function.update s.committed c log.committed
      joiner := { s.joiner with predictions := log.predictions }
      copied := s.copied ++
        ((log.committed.drop (s.committed c).length).flatten.map fun posted => (c,posted)) }
  | .select now rows => { s with joiner := s.joiner.step S (.select now rows) }
  | .commit => { s with joiner := s.joiner.step S .commit }
  | .fail => { s with joiner := s.joiner.step S .fail }

def Fleet.new (bufferSize : Container → Nat) : Fleet F :=
  ⟨fun c => NewStore (bufferSize c),fun _ => [],⟨Table.empty,Table.empty,none,[]⟩,[]⟩

/-- A record of a log and the label of its transaction. -/
structure Evidence (F : Type) where
  container : Container
  posted : Posted (Record F)
  label : Label

/-- What `evaluate_canary` makes of it. -/
def Evidence.row (x : Evidence F) : Canary.WindowRow F :=
  ⟨x.posted.item.fraudProbability,x.posted.item.flagged,x.label.isFraud,x.posted.item.totalMs⟩

/-- A record of the version in the window, with its label if that has arrived. -/
def Fleet.evidenceOf (s : Fleet F) (now hours : Int) (version : String)
    (x : Container × Posted (Record F)) : Option (Evidence F) :=
  if x.2.item.modelVersion = version ∧ Canary.windowStart now hours ≤ x.2.item.createdAt ∧
      x.2.item.createdAt ≤ now then
    ((s.joiner.labels.find? x.2.item.transactionId).filter (·.availableAt ≤ now)).map
      fun label => ⟨x.1,x.2,label⟩
  else none

def Fleet.evidence (s : Fleet F) (now hours : Int) (version : String) : List (Evidence F) :=
  s.copied.filterMap (s.evidenceOf now hours version)

structure Fleet.Inv (S : Simulator) (s : Fleet F) : Prop where
  rows : s.joiner.predictions.rows = s.copied.map fun x => x.2.item.row
  noted : ∀ c, (s.copied.filter fun x => x.1 = c).map Prod.snd = (s.committed c).flatten
  working : ∀ c, (s.log c).Working
  ledger : ∀ c, (s.stores c).Ledger
  joiner : s.joiner.Inv S Table.empty

section Growth

variable {S : Simulator} {s : Joiner F} {predictions predictions' : Predictions F} {now : Int}
  {l : Label}

theorem grounded_grow (more : predictions.rows ⊆ predictions'.rows)
    (h : S.Grounded predictions now l) : S.Grounded predictions' now l := by
  obtain ⟨p, hp, ht, ha⟩ := h.availableAt
  exact ⟨h.isFraud,⟨p,more hp,ht,ha⟩,h.arrived⟩

theorem joiner_grow {initial : LabelTable} (more : s.predictions.rows ⊆ predictions.rows)
    (h : s.Inv S initial) : Joiner.Inv S initial { s with predictions := predictions } :=
  ⟨⟨h.sound.rows,fun w hw => grounded_grow more (h.sound.grounded w hw),h.sound.unique,
    h.sound.attempts⟩,fun b hb l hl => grounded_grow more (h.running b hb l hl)⟩

/-- The joiner's own steps read the predictions only. -/
theorem joiner_predictions (e : Labels.Event F) (own : ∀ p, e ≠ .predict p) :
    (s.step S e).predictions = s.predictions := by
  cases e with
  | predict p => exact absurd rfl (own p)
  | select now rows =>
    simp only [Joiner.step]
    split_ifs <;> rfl
  | commit =>
    simp only [Joiner.step]
    split <;> rfl
  | fail => rfl

theorem working_grow {log : Persisted F} {predictions : Serving.PredictionTable F}
    (more : log.predictions.rows ⊆ predictions.rows) (h : log.Working) :
    Persisted.Working { log with predictions := predictions } :=
  ⟨List.Subset.trans h.there more,h.busy,h.covered⟩

end Growth

section Step

variable {S : Simulator} {s : Fleet F} {c d : Container} {records : List (Posted (Record F))}

theorem noted_same :
    ((records.map fun posted => (d,posted)).filter fun x => x.1 = d).map Prod.snd = records := by
  have all : (records.map fun posted => (d,posted)).filter (fun x => x.1 = d) =
      records.map fun posted => (d,posted) := by
    rw [List.filter_eq_self]
    intro x hx
    obtain ⟨posted, _, rfl⟩ := List.mem_map.mp hx
    exact decide_eq_true rfl
  rw [all, List.map_map]
  exact List.map_id records

theorem noted_other (other : d ≠ c) :
    ((records.map fun posted => (c,posted)).filter fun x => x.1 = d).map Prod.snd = [] := by
  rw [List.map_eq_nil_iff, List.filter_eq_nil_iff]
  intro x hx
  obtain ⟨posted, _, rfl⟩ := List.mem_map.mp hx
  simpa using other.symm

theorem inv_joiner (h : s.Inv S) (e : Labels.Event F) (own : ∀ p, e ≠ .predict p) :
    Fleet.Inv S { s with joiner := s.joiner.step S e } := by
  have same := joiner_predictions (S := S) (s := s.joiner) e own
  refine ⟨by rw [← h.rows]; exact congrArg Table.rows same,h.noted,fun c => ?_,h.ledger,
    step_inv h.joiner e⟩
  have log : Fleet.log { s with joiner := s.joiner.step S e } c = s.log c := by
    simp only [Fleet.log, same]
  rw [log]
  exact h.working c

/-- One step of one container's log, the other's table having grown. -/
theorem inv_serve (h : s.Inv S) (c : Container) (a : PersistAction F) :
    (s.step S (.serve c a)).Inv S := by
  obtain ⟨added, committed, rows⟩ := Serving.step_added (s.log c) a
  have more : s.joiner.predictions.rows ⊆ ((s.log c).step a).predictions.rows := by
    rw [rows]
    exact List.subset_append_left _ _
  have news : ((s.log c).step a).committed.drop (s.committed c).length = added := by
    rw [committed]
    exact List.drop_left
  simp only [Fleet.step, news]
  refine ⟨?_,fun d => ?_,fun d => ?_,fun d => ?_,joiner_grow more h.joiner⟩
  · have before : (s.log c).predictions.rows = _ := h.rows
    rw [rows, before, List.map_append, List.map_map]
    rfl
  · dsimp only
    rw [List.filter_append, List.map_append, h.noted d]
    by_cases own : d = c
    · subst own
      rw [Function.update_self, committed, List.flatten_append, noted_same]
      rfl
    · rw [Function.update_of_ne own, noted_other own, List.append_nil]
  · by_cases own : d = c
    · subst own
      have working := Serving.persisted_working (h.working d) a
      simpa only [Fleet.log, Function.update_self] using working
    · have working := working_grow more (h.working d)
      simpa only [Fleet.log, Function.update_of_ne own] using working
  · dsimp only
    by_cases own : d = c
    · subst own
      rw [Function.update_self]
      exact Serving.persisted_ledger (s := s.log d) (h.ledger d) a
    · rw [Function.update_of_ne own]
      exact h.ledger d

theorem step_inv (h : s.Inv S) (e : FleetEvent F) : (s.step S e).Inv S := by
  cases e with
  | serve c a => exact inv_serve h c a
  | select now rows => exact inv_joiner h _ nofun
  | commit => exact inv_joiner h _ nofun
  | fail => exact inv_joiner h _ nofun

theorem inv_new (S : Simulator) (bufferSize : Container → Nat) :
    (Fleet.new bufferSize : Fleet F).Inv S :=
  ⟨rfl,fun _ => rfl,fun c => Serving.working_new (bufferSize c) Table.empty,
    fun c => Serving.ledger_new (bufferSize c),inv_of_idle rfl rfl nofun⟩

end Step

section Evidence

variable {S : Simulator} {s : Fleet F} {now hours : Int} {version : String}

/-- The labels a prediction is joined with: its transaction's one, if that has arrived. -/
theorem joined_labels (labels : LabelTable) (now transactionId : Int) :
    labels.rows.filter (fun l => l.transactionId = transactionId ∧ l.availableAt ≤ now) =
      ((labels.find? transactionId).filter (·.availableAt ≤ now)).toList := by
  have both : labels.rows.filter (fun l => l.transactionId = transactionId ∧ l.availableAt ≤ now) =
      (labels.rows.filter fun l => l.transactionId = transactionId).filter
        (·.availableAt ≤ now) := by
    rw [List.filter_filter]
    apply List.filter_congr
    intro l _
    simp [Bool.and_comm]
  rw [both, labels.filter_key]
  cases labels.find? transactionId with
  | none => rfl
  | some l => by_cases arrived : l.availableAt ≤ now <;> simp [Option.filter, arrived]

section Window

variable {predictions predictions' : List (Prediction F)} {labels : List Label}
  {champion challenger : String}

theorem windowRows_append :
    Canary.windowRows (predictions ++ predictions') labels now hours champion challenger version =
      Canary.windowRows predictions labels now hours champion challenger version ++
        Canary.windowRows predictions' labels now hours champion challenger version := by
  simp only [Canary.windowRows, Canary.rowsOf, Canary.labeledRows, List.filter_append,
    List.flatMap_append, List.map_append]

theorem windowRows_singleton (known : version = champion ∨ version = challenger)
    (p : Prediction F) :
    Canary.windowRows [p] labels now hours champion challenger version =
      if p.modelVersion = version ∧ Canary.windowStart now hours ≤ p.createdAt ∧
          p.createdAt ≤ now then
        (labels.filter fun l => l.transactionId = p.transactionId ∧ l.availableAt ≤ now).map
          fun l => ⟨p.fraudProbability,p.flagged,l.isFraud,p.totalMs⟩
      else [] := by
  rw [Canary.windowRows, Canary.labeledRows, Canary.rowsOf]
  split_ifs with inside
  · obtain ⟨rfl, later, earlier⟩ := inside
    rw [List.filter_cons_of_pos (by simpa using ⟨later,earlier,known⟩), List.filter_nil,
      List.flatMap_singleton, List.filter_eq_self.mpr, List.map_map]
    · rfl
    · intro x hx
      obtain ⟨l, _, rfl⟩ := List.mem_map.mp hx
      exact decide_eq_true rfl
  · rw [List.map_eq_nil_iff, List.filter_eq_nil_iff]
    intro x hx
    obtain ⟨q, hq, joined⟩ := List.mem_flatMap.mp hx
    obtain ⟨l, _, rfl⟩ := List.mem_map.mp joined
    obtain ⟨member, window⟩ := List.mem_filter.mp hq
    rw [List.mem_singleton.mp member] at window ⊢
    simp only [decide_eq_true_eq] at window ⊢
    exact fun same => inside ⟨same,window.1,window.2.1⟩

end Window

/-- The query of one evaluation, over the records instead of the rows. -/
theorem windowRows_evidence (h : s.Inv S) {champion challenger : String}
    (known : version = champion ∨ version = challenger) :
    Canary.windowRows s.joiner.predictions.rows s.joiner.labels.rows now hours champion challenger
      version = (s.evidence now hours version).map Evidence.row := by
  rw [h.rows, Fleet.evidence]
  induction s.copied with
  | nil => rfl
  | cons x copied ih =>
    have first : Canary.windowRows [x.2.item.row] s.joiner.labels.rows now hours champion
        challenger version = ((s.evidenceOf now hours version x).map Evidence.row).toList := by
      rw [windowRows_singleton known, joined_labels, Fleet.evidenceOf]
      by_cases inside : x.2.item.modelVersion = version ∧
          Canary.windowStart now hours ≤ x.2.item.createdAt ∧ x.2.item.createdAt ≤ now
      · refine (if_pos inside).trans ?_
        rw [if_pos inside]
        change List.map _ ((s.joiner.labels.find? x.2.item.transactionId).filter _).toList = _
        cases (s.joiner.labels.find? x.2.item.transactionId).filter (·.availableAt ≤ now) <;> rfl
      · refine (if_neg inside).trans ?_
        rw [if_neg inside]
        rfl
    rw [List.map_cons, ← List.singleton_append, windowRows_append, first, ih, List.filterMap_cons]
    cases s.evidenceOf now hours version x with
    | none => rfl
    | some y => rfl

/-- A record that is judged, and why. -/
structure Evidence.Sound (S : Simulator) (s : Fleet F) (now hours : Int) (version : String)
    (x : Evidence F) : Prop where
  version : x.posted.item.modelVersion = version
  window : Canary.windowStart now hours ≤ x.posted.item.createdAt ∧ x.posted.item.createdAt ≤ now
  transaction : x.label.transactionId = x.posted.item.transactionId
  truth : S.groundTruth x.posted.item.transactionId = some x.label.isFraud
  arrived : x.label.availableAt ≤ now
  delayed : ∃ y ∈ s.copied, y.2.item.transactionId = x.posted.item.transactionId ∧
    x.label.availableAt = y.2.item.createdAt + S.delayDistribution x.posted.item.transactionId

theorem evidenceOf_eq_some {x : Container × Posted (Record F)} {y : Evidence F}
    (h : s.evidenceOf now hours version x = some y) :
    (y.container,y.posted) = x ∧ (x.2.item.modelVersion = version ∧
      Canary.windowStart now hours ≤ x.2.item.createdAt ∧ x.2.item.createdAt ≤ now) ∧
      s.joiner.labels.find? x.2.item.transactionId = some y.label ∧ y.label.availableAt ≤ now := by
  unfold Fleet.evidenceOf at h
  split_ifs at h with inside
  obtain ⟨l, found, rfl⟩ := Option.map_eq_some_iff.mp h
  obtain ⟨label, arrived⟩ := Option.filter_eq_some_iff.mp found
  exact ⟨rfl,inside,label,by simpa using arrived⟩

theorem evidence_sound (h : s.Inv S) {x : Evidence F} (hx : x ∈ s.evidence now hours version) :
    x.Sound S s now hours version := by
  obtain ⟨⟨c, posted⟩, hc, found⟩ := List.mem_filterMap.mp hx
  obtain ⟨same, ⟨hv, window⟩, label, arrived⟩ := evidenceOf_eq_some found
  cases same
  obtain ⟨stored, transaction⟩ := Table.find?_eq_some.mp label
  rw [h.joiner.sound.rows] at stored
  obtain ⟨w, hw, written⟩ := List.mem_map.mp stored
  have grounded := h.joiner.sound.grounded w hw
  rw [written] at grounded
  obtain ⟨p, hp, ht, ha⟩ := grounded.availableAt
  rw [h.rows] at hp
  obtain ⟨y, hy, rfl⟩ := List.mem_map.mp hp
  refine ⟨hv,window,transaction,?_,arrived,y,hy,ht.trans transaction,?_⟩
  · rw [← transaction]
    exact grounded.isFraud
  · rw [← transaction]
    exact ha

theorem filterMap_sublist {α β : Type*} {f : α → Option β} {g : β → α}
    (back : ∀ x y, f x = some y → g y = x) (xs : List α) : ((xs.filterMap f).map g).Sublist xs := by
  induction xs with
  | nil => exact List.Sublist.refl []
  | cons x xs ih =>
    rw [List.filterMap_cons]
    cases found : f x with
    | none => exact ih.cons x
    | some y =>
      rw [List.map_cons, back x y found]
      exact ih.cons_cons x

/-- Each record counts once. -/
theorem evidence_once (h : s.Inv S) (c : Container) :
    (((s.evidence now hours version).filter fun x => x.container = c).map Evidence.posted).Sublist
      (s.stores c).ch.accepted := by
  have kept : ((s.evidence now hours version).map fun x => (x.container,x.posted)).Sublist
      s.copied := by
    apply filterMap_sublist
    intro x y found
    exact (evidenceOf_eq_some found).1
  have taken : (s.committed c).flatten.Sublist (s.stores c).ch.accepted :=
    (h.working c).accepted (h.ledger c)
  rw [← h.noted c] at taken
  have filtered := (kept.filter fun x => x.1 = c).map Prod.snd
  rw [List.filter_map, List.map_map] at filtered
  exact filtered.trans taken

/-- Over any run of both containers and the label joiner, an evaluation judges exactly the
records of its two versions whose labels have arrived: each comes from one accepted call of `Log`,
counts once, and is held against the truth about its transaction. -/
theorem window_evidence (S : Simulator) (bufferSize : Container → Nat) (es : List (FleetEvent F))
    (now hours : Int) (champion challenger version : String)
    (known : version = champion ∨ version = challenger) :
    let s := run (Fleet.step S) (Fleet.new bufferSize) es
    Canary.windowRows s.joiner.predictions.rows s.joiner.labels.rows now hours champion challenger
        version = (s.evidence now hours version).map Evidence.row ∧
      (∀ c, (((s.evidence now hours version).filter fun x => x.container = c).map
        Evidence.posted).Sublist (s.stores c).ch.accepted) ∧
      ∀ x ∈ s.evidence now hours version, x.Sound S s now hours version := by
  have inv : (run (Fleet.step S) (Fleet.new bufferSize) es : Fleet F).Inv S :=
    always_last _ (always_of_step (Fleet.step S) (P := Fleet.Inv S) (fun s e h => step_inv h e)
      (inv_new S bufferSize) es)
  exact ⟨windowRows_evidence inv known,evidence_once inv,fun x => evidence_sound inv⟩

end Evidence

section Sample

def oneFraud : Simulator := ⟨fun transactionId => if transactionId = 7 then some true else none,
  fun _ => 50,10⟩

def scoredOnce : Record Exact :=
  ⟨"p1",7,"c1",some (3 / 4),true,"",some 1,some 1,some 8,100⟩

/-- A record is logged, flushed with a reply that is lost, and refused when it comes again; the
joiner labels it. -/
def logAndLabel : List (FleetEvent Exact) :=
  [.serve .champion (.log (.log scoredOnce) nofun),.serve .champion (.log (.send 0) nofun),
    .serve .champion (.log .receive nofun),.serve .champion (.log .tick nofun),
    .serve .champion (.flush false .unanswered),.serve .champion (.flush false .delivered),
    .select 200 [⟨7,100⟩],.commit]

end Sample

theorem window_evidence_small :
    let s := run (Fleet.step oneFraud) (Fleet.new fun _ => 2) logAndLabel
    Canary.windowRows s.joiner.predictions.rows s.joiner.labels.rows 200 24 "c1" "k1" "c1" =
        (s.evidence 200 24 "c1").map Evidence.row ∧
      (∀ c, (((s.evidence 200 24 "c1").filter fun x => x.container = c).map
        Evidence.posted).Sublist (s.stores c).ch.accepted) ∧
      ∀ x ∈ s.evidence 200 24 "c1", x.Sound oneFraud s 200 24 "c1" :=
  window_evidence oneFraud (fun _ => 2) logAndLabel 200 24 "c1" "k1" "c1" (Or.inl rfl)

example : ((run (Fleet.step oneFraud) (Fleet.new fun _ => 2) logAndLabel).evidence 200 24
    "c1").map (fun x => (x.posted.item,x.label.isFraud)) = [(scoredOnce,true)] := by
  decide +kernel

end FraudPlatform.Lineage
