import FraudPlatform.Framework.DoubleRounding
import FraudPlatform.Framework.JsonDump
import FraudPlatform.Serving.Runner

namespace FraudPlatform.Features

open Framework Ieee JsonScan JsonDump

/-- One value of a record. -/
inductive Cell
  | int (n : Int)
  | float (x : Datum)
  deriving DecidableEq, Repr

/-- A record of the prepared frame. -/
structure FeatureRow where
  cells : List (String × Cell)
  distinct : (cells.map Prod.fst).Nodup

/-- `None if isinstance(v, float) and np.isnan(v) else v` -/
def clean : Cell → Scalar
  | .float .nan => .none
  | .float x => .float x
  | .int n => .int n

/-- `json.dumps(clean)`; `repr` is `float.__repr__` of the finite floats. -/
def dumps (repr : Datum → List Char) (row : FeatureRow) : List Char :=
  dict (Dict.mapValues (fun v => scalar repr (clean v)) row.cells)

def featureKey (transactionId : Int) : String :=
  "fraud:features:" ++ String.ofList (int transactionId)

/-- The answers of Redis to `GET`. -/
abbrev Redis := String → Except String (Option (List Char))

/-- The loader's `pipe.set` of one row, once it is executed. -/
def Redis.load (rdb : Redis) (repr : Datum → List Char) (txnId : Int) (row : FeatureRow) : Redis :=
  fun key => if key = featureKey txnId then .ok (some (dumps repr row)) else rdb key

inductive GetError
  | notFound
  /-- `redis get %s: %w` -/
  | redisGet (key err : String)
  /-- `unmarshal features for %d: %w` -/
  | unmarshal (transactionId : Int)
  /-- `unexpected feature type for key %q: %T` -/
  | unexpectedType (key : String)
  deriving DecidableEq, Repr

/-- `json.Unmarshal` into a `map[string]any` -/
def unmarshalMap (val : List Char) : Option (List (String × Value)) :=
  match unmarshal val with
  | some (.object members) => some (Dict.lastWins members)
  | some .null => some []
  | _ => none

/-- The body of the loop over `raw`. -/
def feature (key : String) : Value → Except GetError Datum
  | .number tv => .ok (if tv = .nan then .nan else binary32.convert tv)
  | .null => .ok .nan
  | _ => .error (.unexpectedType key)

/-- The loop over `raw`; Go may meet the keys in any order. -/
def convertAll : List (String × Value) → Except GetError (List (String × Datum))
  | [] => .ok []
  | (key, value) :: raw => do
    let x ← feature key value
    let features ← convertAll raw
    return (key,x) :: features

/-- `Client.Get` -/
def get (rdb : Redis) (transactionId : Int) : Except GetError (Serving.FeatureMap Datum) :=
  match rdb (featureKey transactionId) with
  | .error err => .error (.redisGet (featureKey transactionId) err)
  | .ok none => .error .notFound
  | .ok (some val) =>
    match unmarshalMap val with
    | none => .error (.unmarshal transactionId)
    | some raw => (convertAll raw).map fun features key => features.lookup key

/-- The `float32` rounding of a value. -/
def Cell.float32 : Cell → Datum
  | .int n => binary32.ofInt n
  | .float x => binary32.convert x

/-- After the row is loaded, `Get` has its keys and the `float32` values. -/
def Survives (rdb : Redis) (repr : Datum → List Char) (txnId : Int) (row : FeatureRow) : Prop :=
  ∃ features, get (rdb.load repr txnId row) txnId = .ok features ∧
    ∀ key, features key = (row.cells.lookup key).map Cell.float32

/-- No infinity; an integer in the range of the doubles whose rounding to one does not mislead the
rounding to 32 bits. -/
def Cell.Portable : Cell → Prop
  | .int n => n.natAbs < 2 ^ 1024 - 2 ^ 970 ∧ ¬Misrounded n.natAbs
  | .float (.infinite _) => False
  | .float _ => True

/-- The finite floats of the row keep their values in Python's decimals. -/
def ExactDecimals (repr : Datum → List Char) (row : FeatureRow) : Prop :=
  ∀ m ∈ row.cells, ∀ negative magnitude, m.2 = .float (.finite negative magnitude) →
    Exact repr (.finite negative magnitude)

/-- What `Get` makes of one value. -/
def toFeature : Value → Datum
  | .number x => binary32.convert x
  | _ => .nan

variable {rdb : Redis} {repr : Datum → List Char} {txnId : Int} {row : FeatureRow}

/-- The members of the written row, one by one, if all of its values can be read. -/
theorem unmarshal_dumps (decimals : ExactDecimals repr row) :
    unmarshal (dumps repr row) =
      (Dict.mapValues? (fun v => received (clean v)) row.cells).map .object := by
  have back : ∀ m ∈ row.cells, ReadBack (value 9999) '}' (fun v => scalar repr (clean v))
      (fun v => received (clean v)) m.2 := by
    intro m hm
    apply readBack_scalar
    intro negative magnitude h
    apply decimals m hm negative magnitude
    cases hv : m.2 with
    | int n =>
      rw [hv] at h
      cases h
    | float x =>
      rw [hv] at h
      cases x <;> cases h
      rfl
  have read := value_dict back []
  rw [List.append_nil] at read
  have solid : skip (dumps repr row) = dumps repr row := rfl
  rw [unmarshal, solid, dumps, read]
  cases Dict.mapValues? (fun v => received (clean v)) row.cells <;> rfl

theorem feature_of_received {v : Cell} {x : Value} (h : received (clean v) = some x)
    (key : String) : feature key x = .ok (toFeature x) := by
  have shape : x = .null ∨ ∃ d, x = .number d := by
    cases v with
    | int n =>
      obtain ⟨d, _, rfl⟩ := Option.map_eq_some_iff.mp h
      exact Or.inr ⟨d,rfl⟩
    | float y =>
      cases y with
      | nan => exact Or.inl (Option.some.inj h).symm
      | infinite negative => cases h
      | finite negative magnitude => exact Or.inr ⟨_,(Option.some.inj h).symm⟩
  rcases shape with rfl | ⟨d, rfl⟩
  · rfl
  · by_cases nan : d = .nan
    · rw [nan]
      rfl
    · rw [feature, if_neg nan]
      rfl

theorem convertAll_ok {raw : List (String × Value)}
    (h : ∀ m ∈ raw, feature m.1 m.2 = .ok (toFeature m.2)) :
    convertAll raw = .ok (Dict.mapValues toFeature raw) := by
  induction raw with
  | nil => rfl
  | cons m raw ih =>
    obtain ⟨first, later⟩ := List.forall_mem_cons.mp h
    rw [convertAll, first, ih later]
    rfl

/-- `Get` on a loaded row: an error where a value cannot be read, and else the value of each key. -/
theorem get_load (decimals : ExactDecimals repr row) :
    get (rdb.load repr txnId row) txnId =
      match Dict.mapValues? (fun v => received (clean v)) row.cells with
      | none => .error (.unmarshal txnId)
      | some raw => .ok fun key => (raw.lookup key).map toFeature := by
  rw [get, Redis.load, if_pos rfl]
  simp only [unmarshalMap, unmarshal_dumps decimals]
  cases hraw : Dict.mapValues? (fun v => received (clean v)) row.cells with
  | none => rfl
  | some raw =>
    have nodup : (raw.map Prod.fst).Nodup := by
      rw [Dict.keys_of_mapValues? hraw]
      exact row.distinct
    have all : ∀ m ∈ raw, feature m.1 m.2 = .ok (toFeature m.2) := by
      intro m hm
      obtain ⟨v, hv⟩ := Dict.read_of_mem hraw hm
      exact feature_of_received hv m.1
    simp only [Option.map_some, Dict.lastWins_of_nodup nodup, convertAll_ok all, Except.map]
    congr 1
    funext key
    exact Dict.lookup_mapValues toFeature raw key

/-- A row survives exactly when each of its values does. -/
theorem survives_iff (decimals : ExactDecimals repr row) :
    Survives rdb repr txnId row ↔
      ∀ m ∈ row.cells, (received (clean m.2)).map toFeature = some m.2.float32 := by
  rw [Survives, get_load decimals]
  constructor
  · rintro ⟨features, h, values⟩ m hm
    cases hraw : Dict.mapValues? (fun v => received (clean v)) row.cells with
    | none =>
      rw [hraw] at h
      cases h
    | some raw =>
      rw [hraw] at h
      cases h
      have here : (raw.lookup m.1).map toFeature = (row.cells.lookup m.1).map Cell.float32 :=
        values m.1
      rw [Dict.lookup_of_mapValues? hraw, Dict.lookup_of_mem row.distinct hm] at here
      exact here
  · intro values
    have readable : ∀ m ∈ row.cells, ∃ x, received (clean m.2) = some x := by
      intro m hm
      obtain ⟨x, hx, _⟩ := Option.map_eq_some_iff.mp (values m hm)
      exact ⟨x,hx⟩
    obtain ⟨raw, hraw⟩ : ∃ raw,
        Dict.mapValues? (fun v => received (clean v)) row.cells = some raw :=
      Dict.exists_mapValues?_iff.mpr readable
    rw [hraw]
    refine ⟨_,rfl,?_⟩
    intro key
    rw [Dict.lookup_of_mapValues? hraw]
    cases hkey : row.cells.lookup key with
    | none => rfl
    | some v => exact values (key,v) (Dict.mem_of_lookup hkey)

theorem toDouble_int (n : Int) :
    toDouble (decide (n < 0),(n.natAbs : ℚ)) =
      if n.natAbs < 2 ^ 1024 - 2 ^ 970 then some (binary64.ofInt n) else none := by
  rw [toDouble, Format.ofInt, Format.ofRat]
  simp only [round_binary64_lt_iff]
  split_ifs <;> rfl

theorem portable_iff (v : Cell) :
    (received (clean v)).map toFeature = some v.float32 ↔ v.Portable := by
  cases v with
  | int n =>
    rw [clean, received, toDouble_int, Cell.float32, Cell.Portable]
    split_ifs with fits
    · rw [Option.map_some, Option.map_some, Option.some.injEq, toFeature, convert_ofInt_iff fits]
      exact (and_iff_right fits).symm
    · exact iff_of_false (by simp) (fun h => fits h.1)
  | float x =>
    cases x with
    | nan => exact iff_of_true rfl trivial
    | infinite negative => exact iff_of_false (by simp [clean, received]) id
    | finite negative magnitude => exact iff_of_true rfl trivial

/-- The integers that a double holds exactly are portable. -/
theorem portable_of_small {n : Int} (h : n.natAbs < 2 ^ 53) : Cell.Portable (.int n) := by
  have small : Nat.log 2 n.natAbs < 53 := by
    by_cases zero : n.natAbs = 0
    · rw [zero]
      decide
    · exact Nat.log_lt_of_lt_pow zero h
  have first : 2 ^ 53 ≤ 2 ^ 970 := pow_le_pow_right₀ (by decide) (by decide)
  have second : 2 ^ (970 + 1) ≤ 2 ^ 1024 := pow_le_pow_right₀ (by decide) (by decide)
  rw [pow_succ] at second
  refine ⟨?_,not_misrounded_of_small small⟩
  omega

/-- A row survives the way through Redis exactly when all of its values are portable. -/
theorem row_survives_iff (rdb : Redis) (repr : Datum → List Char) (txnId : Int) (row : FeatureRow)
    (decimals : ExactDecimals repr row) :
    Survives rdb repr txnId row ↔ ∀ m ∈ row.cells, m.2.Portable := by
  rw [survives_iff decimals]
  exact forall₂_congr fun m _ => portable_iff m.2

/-- Python's texts of three floats. -/
def decimalText (x : Datum) : List Char :=
  if x = .finite true 1 then "-1.0".toList
  else if x = .finite false (1 / 2) then "0.5".toList
  else "0.0".toList

theorem exact_decimalText : Exact decimalText (.finite true 1) ∧
    Exact decimalText (.finite false (1 / 2)) ∧ Exact decimalText (.finite false 0) :=
  ⟨⟨(true,1),by decide +kernel,by decide +kernel⟩,
    ⟨(false,1 / 2),by decide +kernel,by decide +kernel⟩,
    ⟨(false,0),by decide +kernel,by decide +kernel⟩⟩

def smallRow : FeatureRow :=
  ⟨[("TransactionAmt",.float (.finite false (1 / 2))),("dist1",.float .nan),("card1",.int 3)],
    by decide⟩

theorem exactDecimals_smallRow : ExactDecimals decimalText smallRow := by
  intro m hm negative magnitude h
  simp only [smallRow, List.mem_cons, List.not_mem_nil, or_false] at hm
  rcases hm with rfl | rfl | rfl
  · cases h
    exact exact_decimalText.2.1
  · cases h
  · cases h

theorem row_survives_small : Survives (fun _ => .ok none) decimalText 7 smallRow := by
  refine (row_survives_iff _ _ _ _ exactDecimals_smallRow).mpr ?_
  intro m hm
  simp only [smallRow, List.mem_cons, List.not_mem_nil, or_false] at hm
  rcases hm with rfl | rfl | rfl
  · trivial
  · trivial
  · exact portable_of_small (by decide)

/-- `log1p(-1)` is an infinity. -/
def refundRow : FeatureRow :=
  ⟨[("TransactionAmt",.float (.finite true 1)),("TransactionAmt_log",.float (.infinite true)),
      ("TransactionAmt_decimal",.float (.finite false 0))],by decide⟩

theorem exactDecimals_refundRow : ExactDecimals decimalText refundRow := by
  intro m hm negative magnitude h
  simp only [refundRow, List.mem_cons, List.not_mem_nil, or_false] at hm
  rcases hm with rfl | rfl | rfl
  · cases h
    exact exact_decimalText.1
  · cases h
  · cases h
    exact exact_decimalText.2.2

/-- The text has a token that JSON does not know, and `Get` fails for the whole row. -/
theorem refundRow_lost :
    dumps decimalText refundRow =
        ("\x7b\"TransactionAmt\": -1.0, \"TransactionAmt_log\": -Infinity, " ++
          "\"TransactionAmt_decimal\": 0.0\x7d").toList ∧
      ¬Survives (fun _ => .ok none) decimalText 7 refundRow := by
  refine ⟨by decide +kernel,?_⟩
  intro survives
  have infinite := (survives_iff exactDecimals_refundRow).mp survives
    ("TransactionAmt_log",.float (.infinite true)) (by simp [refundRow])
  cases infinite

end FraudPlatform.Features
