import FraudPlatform.Features.Schema

namespace FraudPlatform.Features

/-- The row key, the two temporal markers and the target. -/
def excludeFromFeatures : List String := ["TransactionID","TransactionDT","isFraud","day"]

def auditCols : List String := ["TransactionID","TransactionDT","isFraud"]

/-- A prepared frame: it has the four columns that are no features. -/
structure Prepared where
  schema : Schema
  markers : ∀ name ∈ excludeFromFeatures, name ∈ schema.names

/-- `preprocess` of raw data whose key and target were kept. -/
def Prepared.ofPreprocess {raw df : Schema} {dropped : List String}
    (h : preprocess raw dropped = .ok df)
    (key : "TransactionID" ∈ raw.names ∧ "TransactionID" ∉ dropped)
    (target : "isFraud" ∈ raw.names ∧ "isFraud" ∉ dropped) : Prepared where
  schema := df
  markers := by
    obtain ⟨day, dt, keep⟩ := preprocess_names h
    intro name hn
    simp only [excludeFromFeatures, List.mem_cons, List.not_mem_nil, or_false] at hn
    rcases hn with rfl | rfl | rfl | rfl
    · exact keep _ key.1 key.2
    · exact dt
    · exact keep _ target.1 target.2
    · exact day

namespace Prepared

variable (frame : Prepared)

/-- The names in `feature_list.json`. -/
def featureList : List String := frame.schema.names.filter (· ∉ auditCols)

/-- `pruned_features.json`, for the features that adversarial validation found to drift most. -/
def prunedFeatures (topDrift : List String) : List String :=
  frame.featureList.filter (· ∉ topDrift)

/-- `onnx_feature_order.json`: the columns `evaluate` trains the champion on. -/
def championOrder (pruned : List String) : List String :=
  pruned.filter fun c =>
    c ∈ frame.schema.names ∧ c ∉ excludeFromFeatures ∧ frame.schema.isCategory c = false

/-- `lgbm_onnx_feature_order.json`: the columns `load_data` trains the challenger on. -/
def challengerOrder : List String :=
  frame.schema.names.filter (· ∉ ["isFraud","TransactionID"])

/-- The keys of every row that `load_features_to_redis` stores. -/
def storedKeys : List String := frame.schema.names.filter (· ≠ "TransactionID")

/-- No excluded column, and no name that a stored row lacks. -/
def OrderSound (order : List String) : Prop :=
  (∀ name ∈ order, name ∉ excludeFromFeatures) ∧ ∀ name ∈ order, name ∈ frame.storedKeys

instance (order : List String) : Decidable (frame.OrderSound order) := by
  unfold OrderSound
  infer_instance

theorem mem_storedKeys {name : String} :
    name ∈ frame.storedKeys ↔ name ∈ frame.schema.names ∧ name ≠ "TransactionID" := by
  rw [storedKeys, List.mem_filter, decide_eq_true_eq]

theorem mem_challengerOrder {name : String} :
    name ∈ frame.challengerOrder ↔
      name ∈ frame.schema.names ∧ name ≠ "isFraud" ∧ name ≠ "TransactionID" := by
  simp [challengerOrder]

/-- Whatever was pruned, the champion's filter ends with the exclusion list. -/
theorem championOrder_sound (pruned : List String) :
    frame.OrderSound (frame.championOrder pruned) := by
  have filtered : ∀ name ∈ frame.championOrder pruned,
      name ∈ frame.schema.names ∧ name ∉ excludeFromFeatures := by
    intro name hn
    have kept := of_decide_eq_true (List.mem_filter.mp hn).2
    exact ⟨kept.1,kept.2.1⟩
  refine ⟨fun name hn => (filtered name hn).2,?_⟩
  intro name hn
  obtain ⟨present, notExcluded⟩ := filtered name hn
  refine frame.mem_storedKeys.mpr ⟨present,?_⟩
  rintro rfl
  exact notExcluded (by decide)

theorem challengerOrder_stored : ∀ name ∈ frame.challengerOrder, name ∈ frame.storedKeys := by
  intro name hn
  obtain ⟨present, _, notKey⟩ := frame.mem_challengerOrder.mp hn
  exact frame.mem_storedKeys.mpr ⟨present,notKey⟩

/-- The challenger's inline tuple names neither temporal marker. -/
theorem challengerOrder_markers :
    "TransactionDT" ∈ frame.challengerOrder ∧ "day" ∈ frame.challengerOrder :=
  ⟨frame.mem_challengerOrder.mpr ⟨frame.markers _ (by decide),by decide,by decide⟩,
    frame.mem_challengerOrder.mpr ⟨frame.markers _ (by decide),by decide,by decide⟩⟩

/-- No prepared frame gives two sound feature orders: the champion's is sound and the
challenger's names are stored, but those include the two temporal markers. -/
theorem featureOrders_never_sound (topDrift : List String) :
    ¬(frame.OrderSound (frame.championOrder (frame.prunedFeatures topDrift)) ∧
      frame.OrderSound frame.challengerOrder) ∧
    frame.OrderSound (frame.championOrder (frame.prunedFeatures topDrift)) ∧
    (∀ name ∈ frame.challengerOrder, name ∈ frame.storedKeys) ∧
    "TransactionDT" ∈ frame.challengerOrder ∧ "day" ∈ frame.challengerOrder := by
  refine ⟨?_,frame.championOrder_sound _,frame.challengerOrder_stored,
    frame.challengerOrder_markers⟩
  rintro ⟨_, challenger⟩
  exact challenger.1 "day" frame.challengerOrder_markers.2 (by decide)

end Prepared

section Sample

/-- The least that `preprocess` needs. -/
def smallRaw : Schema :=
  ⟨[⟨"TransactionID",.int⟩,⟨"isFraud",.int⟩,⟨"TransactionDT",.int⟩,⟨"TransactionAmt",.float⟩,
    ⟨"P_emaildomain",.object⟩],by decide⟩

def smallFrame : Prepared where
  schema := ⟨[⟨"TransactionID",.int⟩,⟨"isFraud",.int⟩,⟨"TransactionDT",.int⟩,
    ⟨"TransactionAmt",.float⟩,⟨"P_emaildomain",.category⟩,⟨"hour",.int⟩,⟨"day_of_week",.int⟩,
    ⟨"day",.int⟩,⟨"TransactionAmt_log",.float⟩,⟨"TransactionAmt_decimal",.float⟩,
    ⟨"p_email_tld",.category⟩,⟨"email_match",.int⟩,⟨"P_emaildomain_encoded",.int⟩,
    ⟨"p_email_tld_encoded",.int⟩],by decide⟩
  markers := by decide

end Sample

/-- The challenger of the smallest frame is trained on the day. -/
theorem smallFrame_leaks_day :
    (preprocess smallRaw []).map Schema.columns = .ok smallFrame.schema.columns ∧
      ¬(smallFrame.OrderSound (smallFrame.championOrder (smallFrame.prunedFeatures [])) ∧
        smallFrame.OrderSound smallFrame.challengerOrder) := by
  decide +kernel

end FraudPlatform.Features
