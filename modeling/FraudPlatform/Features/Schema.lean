import FraudPlatform.Framework.Fallible
import Mathlib.Data.List.Nodup

namespace FraudPlatform.Features

/-- What the scripts ask of a column's dtype. -/
inductive Dtype
  | int
  | float
  | object
  | category
  deriving DecidableEq, Repr

structure Column where
  name : String
  dtype : Dtype
  deriving DecidableEq, Repr

/-- The columns of a data frame, of different names. -/
structure Schema where
  columns : List Column
  nodup : (columns.map Column.name).Nodup

namespace Schema

def names (df : Schema) : List String := df.columns.map Column.name

def retype (df : Schema) (dtype : Column → Dtype) : Schema where
  columns := df.columns.map fun c => ⟨c.name,dtype c⟩
  nodup := by
    rw [List.map_map]
    exact df.nodup

/-- `df[name] = ..`: a column that is there is replaced in its place. -/
def assign (df : Schema) (name : String) (dtype : Dtype) : Schema :=
  if h : name ∈ df.columns.map Column.name then
    df.retype fun c => if c.name = name then dtype else c.dtype
  else
    ⟨df.columns ++ [⟨name,dtype⟩],by
      rw [List.map_append, List.map_singleton]
      exact List.nodup_append_comm.mp (List.nodup_cons.mpr ⟨h,df.nodup⟩)⟩

/-- `df.drop(columns=dropped)`. -/
def drop (df : Schema) (dropped : List String) : Schema where
  columns := df.columns.filter fun c => c.name ∉ dropped
  nodup := df.nodup.sublist (List.filter_sublist.map Column.name)

def objectColumns (df : Schema) : List String :=
  (df.columns.filter fun c => c.dtype = .object).map Column.name

def isCategory (df : Schema) (name : String) : Bool :=
  df.columns.any fun c => c.name = name ∧ c.dtype = .category

/-- Reading a column that is not there raises `KeyError`. -/
def require (df : Schema) (name : String) : Except String Unit :=
  if name ∈ df.names then .ok () else .error name

@[simp] theorem names_retype (df : Schema) (dtype : Column → Dtype) :
    (df.retype dtype).names = df.names := by
  simp [names, retype]

theorem mem_names_assign {df : Schema} {name other : String} {dtype : Dtype} :
    other ∈ (df.assign name dtype).names ↔ other ∈ df.names ∨ other = name := by
  unfold assign
  split_ifs with h
  · rw [names_retype]
    constructor
    · exact Or.inl
    · rintro (old | rfl)
      · exact old
      · exact h
  · simp [names, eq_comm]

theorem mem_names_drop {df : Schema} {dropped : List String} {name : String} :
    name ∈ (df.drop dropped).names ↔ name ∈ df.names ∧ name ∉ dropped := by
  simp only [names, drop, List.mem_map, List.mem_filter, decide_eq_true_eq]
  constructor
  · rintro ⟨c, ⟨hc, kept⟩, rfl⟩
    exact ⟨⟨c,hc,rfl⟩,kept⟩
  · rintro ⟨⟨c, hc, rfl⟩, kept⟩
    exact ⟨c,⟨hc,kept⟩,rfl⟩

/-- Columns that are assigned one after another join the names. -/
theorem mem_names_foldl {name : String} (dtype : Dtype) (added : List String) (df : Schema)
    (h : name ∈ df.names) : name ∈ (added.foldl (fun df c => df.assign c dtype) df).names := by
  induction added generalizing df with
  | nil => exact h
  | cons c added ih => exact ih (df.assign c dtype) (mem_names_assign.mpr (Or.inl h))

end Schema

def engineerTimeFeatures (df : Schema) : Except String Schema := do
  df.require "TransactionDT"
  return ((df.assign "hour" .int).assign "day_of_week" .int).assign "day" .int

def engineerAmountFeatures (df : Schema) : Except String Schema := do
  df.require "TransactionAmt"
  return (df.assign "TransactionAmt_log" .float).assign "TransactionAmt_decimal" .float

/-- `r_email_tld` is skipped when `R_emaildomain` was dropped. -/
def engineerEmailFeatures (df : Schema) : Except String Schema := do
  df.require "P_emaildomain"
  let df := df.assign "p_email_tld" .object
  let df := if "R_emaildomain" ∈ df.names then df.assign "r_email_tld" .object else df
  return df.assign "email_match" .int

/-- The schema `preprocess` writes, of a raw one and the columns with too many missing values.
Sorting and splitting the rows leave it alone. -/
def preprocess (raw : Schema) (dropped : List String) : Except String Schema := do
  let df := raw.drop dropped
  let df ← engineerTimeFeatures df
  let df ← engineerAmountFeatures df
  let df ← engineerEmailFeatures df
  let objCols := df.objectColumns
  let df := df.retype fun c => if c.dtype = .object then .category else c.dtype
  return (objCols.map (· ++ "_encoded")).foldl (fun df c => df.assign c .int) df

/-- A step that asks for one column and then cannot fail. -/
theorem require_bind {df df' next : Schema} {name : String}
    (h : (df.require name >>= fun _ => pure next) = .ok df') : name ∈ df.names ∧ df' = next := by
  obtain ⟨_, asked, h⟩ := Framework.bind_eq_ok.mp h
  unfold Schema.require at asked
  split_ifs at asked with present
  cases h
  exact ⟨present,rfl⟩

theorem engineerTimeFeatures_names {df df' : Schema} (h : engineerTimeFeatures df = .ok df') :
    "day" ∈ df'.names ∧ "TransactionDT" ∈ df.names ∧ ∀ name ∈ df.names, name ∈ df'.names := by
  obtain ⟨present, rfl⟩ := require_bind h
  refine ⟨Schema.mem_names_assign.mpr (Or.inr rfl),present,?_⟩
  intro name hn
  simp [Schema.mem_names_assign, hn]

theorem engineerAmountFeatures_names {df df' : Schema} (h : engineerAmountFeatures df = .ok df') :
    ∀ name ∈ df.names, name ∈ df'.names := by
  obtain ⟨_, rfl⟩ := require_bind h
  intro name hn
  simp [Schema.mem_names_assign, hn]

theorem engineerEmailFeatures_names {df df' : Schema} (h : engineerEmailFeatures df = .ok df') :
    ∀ name ∈ df.names, name ∈ df'.names := by
  obtain ⟨_, rfl⟩ := require_bind h
  intro name hn
  split_ifs <;> simp [Schema.mem_names_assign, hn]

/-- No step takes a column away, and the time features add `day`. -/
theorem preprocess_names {raw df : Schema} {dropped : List String}
    (h : preprocess raw dropped = .ok df) :
    "day" ∈ df.names ∧ "TransactionDT" ∈ df.names ∧
      ∀ name ∈ raw.names, name ∉ dropped → name ∈ df.names := by
  obtain ⟨timed, ht, h⟩ := Framework.bind_eq_ok.mp h
  obtain ⟨amounts, ha, h⟩ := Framework.bind_eq_ok.mp h
  obtain ⟨emails, he, h⟩ := Framework.bind_eq_ok.mp h
  cases h
  obtain ⟨day, dt, keep⟩ := engineerTimeFeatures_names ht
  have through : ∀ name ∈ timed.names, name ∈ emails.names := fun name hn =>
    engineerEmailFeatures_names he name (engineerAmountFeatures_names ha name hn)
  have encoded (name : String) (hn : name ∈ timed.names) := Schema.mem_names_foldl .int
    (emails.objectColumns.map (· ++ "_encoded"))
    (emails.retype fun c => if c.dtype = .object then .category else c.dtype)
    (by rw [Schema.names_retype]; exact through name hn)
  refine ⟨encoded _ day,encoded _ (keep _ dt),?_⟩
  intro name hn kept
  exact encoded name (keep name (Schema.mem_names_drop.mpr ⟨hn,kept⟩))

end FraudPlatform.Features
