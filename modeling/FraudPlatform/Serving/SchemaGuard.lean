import FraudPlatform.Features.Load
import FraudPlatform.Framework.JsonWire
import FraudPlatform.Serving.Reload

namespace FraudPlatform.Serving

open Framework Ieee JsonScan JsonStruct JsonWire Features Overwrite

/-- `json.Unmarshal` into a `map[string]json.RawMessage`: the keys, with the values unread. -/
def unmarshalRaw (val : List Char) : Option (List String) :=
  match skip val with
  | [] => none
  | c :: cs =>
    if c = '\x7b' then do
      let (ms, rest) ← enclosed (member (token 9999)) '\x7d' cs
      if skip rest = [] then some ((Dict.lastWins ms).map Prod.fst) else none
    else if "null".toList <+: c :: cs ∧ skip (cs.drop 3) = [] then some []
    else none

/-- `Client.SampleFeatureNames`; `scan` is the first key that the iterator gives, if it gives one,
and `jsonError` the decoder's own text. -/
def sampleFeatureNames (rdb : Redis) (jsonError : String) (scan : Except String (Option String)) :
    Except String (List String) :=
  match scan with
  | .error err => .error ("scan: " ++ err)
  | .ok none => .error "transaction features not found"
  | .ok (some key) =>
    match rdb key with
    | .error err => .error s!"get {key}: {err}"
    | .ok none => .error s!"get {key}: redis: nil"
    | .ok (some val) =>
      match unmarshalRaw val with
      | none => .error s!"unmarshal sample {key}: {jsonError}"
      | some names => .ok names

/-- A scan gives a key of the pattern, if there is one. -/
def Scans (rdb : Redis) (scan : Except String (Option String)) : Prop :=
  ∀ key, scan = .ok (some key) → "fraud:features:".toList <+: key.toList ∧ rdb key ≠ .ok none

/-- A value of a row as the writer of objects has it. -/
def cellData (v : Cell) : Data :=
  match clean v with
  | .none => .null
  | .int n => .int n
  | .float x => .float x

def rowMembers (row : FeatureRow) : List (String × Data) := Dict.mapValues cellData row.cells

/-- A value that is no infinity is written as the writer of objects writes it. -/
theorem data_cellData {repr : Datum → List Char} {v : Cell} (portable : v.Portable) :
    (pyWriter repr).data (cellData v) = JsonDump.scalar repr (clean v) := by
  cases v with
  | int n => rfl
  | float x =>
    cases x with
    | nan => rfl
    | infinite negative => exact portable.elim
    | finite negative magnitude => rfl

theorem dumps_object {repr : Datum → List Char} {row : FeatureRow}
    (portable : ∀ m ∈ row.cells, m.2.Portable) :
    dumps repr row = (pyWriter repr).object (rowMembers row) := by
  have same : Dict.mapValues (fun v => JsonDump.scalar repr (clean v)) row.cells =
      Dict.mapValues (pyWriter repr).data (rowMembers row) := by
    rw [rowMembers, Dict.mapValues, Dict.mapValues, Dict.mapValues, List.map_map]
    apply List.map_congr_left
    intro m hm
    exact congrArg (Prod.mk m.1) (data_cellData (portable m hm)).symm
  rw [object_pyWriter, dumps, same]

theorem numeral_rowMembers {repr : Datum → List Char} {row : FeatureRow}
    (decimals : ExactDecimals repr row) (portable : ∀ m ∈ row.cells, m.2.Portable) :
    ∀ m ∈ rowMembers row, (pyWriter repr).Numeral m.2 := by
  intro m hm x hx
  obtain ⟨cell, hc, rfl⟩ := List.mem_map.mp hm
  have fine := portable cell hc
  have exact := decimals cell hc
  cases hv : cell.2 with
  | int n =>
    simp only [cellData, hv, clean] at hx
    cases hx
  | float y =>
    simp only [cellData, hv] at hx
    cases y with
    | nan => cases hx
    | infinite negative =>
      rw [hv] at fine
      exact fine.elim
    | finite negative magnitude =>
      cases hx
      obtain ⟨literal, read, _⟩ := exact negative magnitude hv
      exact ⟨literal,read⟩

/-- The sample of a loaded row is its columns. -/
theorem unmarshalRaw_dumps {repr : Datum → List Char} {row : FeatureRow}
    (decimals : ExactDecimals repr row) (portable : ∀ m ∈ row.cells, m.2.Portable) :
    unmarshalRaw (dumps repr row) = some (row.cells.map Prod.fst) := by
  have read := enclosed_object (numeral_rowMembers decimals portable) []
  have keys : ((rowMembers row).map fun m => (m.1,(pyWriter repr).token m.2)).map Prod.fst =
      row.cells.map Prod.fst := by
    rw [rowMembers, Dict.mapValues, List.map_map, List.map_map]
    rfl
  have single : Dict.lastWins ((rowMembers row).map fun m => (m.1,(pyWriter repr).token m.2)) =
      (rowMembers row).map fun m => (m.1,(pyWriter repr).token m.2) := by
    apply Dict.lastWins_of_nodup
    rw [keys]
    exact row.distinct
  rw [dumps_object portable]
  change (enclosed _ _ _ >>= fun r => if skip r.2 = [] then
    some ((Dict.lastWins r.1).map Prod.fst) else none) = _
  rw [read]
  change some ((Dict.lastWins _).map Prod.fst) = _
  rw [single, keys]

/-- The rows of one frame, none of which loses a value on its way. -/
structure Prepared (repr : Datum → List Char) (cols : List String) (rows : List Loaded) : Prop where
  columns : ∀ r ∈ rows, r.2.cells.map Prod.fst = cols
  portable : ∀ r ∈ rows, ∀ m ∈ r.2.cells, m.2.Portable
  decimals : ∀ r ∈ rows, ExactDecimals repr r.2

/-- No row of another frame is left in Redis. -/
def Fresh (rdb : Redis) : Prop :=
  ∀ key : String, "fraud:features:".toList <+: key.toList → rdb key = .ok none

variable {repr : Datum → List Char} {cols : List String} {rows : List Loaded} {rdb : Redis}
  {scan : Except String (Option String)} {key : String}

theorem reads_row (prepared : Prepared repr cols rows) {txnId : Int} {row : FeatureRow}
    (h : last rows txnId = some row) : Reads (rdb.setAll repr rows) txnId row := by
  have member : (txnId,row) ∈ rows := mem_of_last h
  exact (reads_setAll h (prepared.decimals _ member)).mpr (prepared.portable _ member)

/-- A row has a value exactly for the columns. -/
theorem isSome_features {row : FeatureRow} {features : FeatureMap Datum}
    (columns : row.cells.map Prod.fst = cols)
    (values : ∀ key, features key = (row.cells.lookup key).map Cell.float32) (name : String) :
    (features name).isSome = true ↔ name ∈ cols := by
  rw [values, Option.isSome_map, ← columns]
  constructor
  · intro some
    obtain ⟨v, hv⟩ := Option.isSome_iff_exists.mp some
    exact List.mem_map_of_mem (Dict.mem_of_lookup hv)
  · intro column
    obtain ⟨m, hm, rfl⟩ := List.mem_map.mp column
    rw [Dict.lookup_of_mem row.distinct hm]
    rfl

/-- What a scan finds is a row of the frame. -/
theorem scanned_row (fresh : Fresh rdb) (scans : Scans (rdb.setAll repr rows) scan)
    (scanned : scan = .ok (some key)) :
    ∃ txnId row, last rows txnId = some row ∧ key = featureKey txnId ∧
      rdb.setAll repr rows key = .ok (some (dumps repr row)) := by
  obtain ⟨pattern, present⟩ := scans key scanned
  have stored : rdb.setAll repr rows key =
      (last (rows.map (entry repr)) key).getD (rdb key) := putAll_apply rdb _ key
  cases hl : last (rows.map (entry repr)) key with
  | none =>
    rw [hl, Option.getD_none] at stored
    exact absurd (stored.trans (fresh key pattern)) present
  | some value =>
    obtain ⟨r, hr, same⟩ := List.mem_map.mp (mem_of_last hl)
    have name : key = featureKey r.1 := (congrArg Prod.fst same).symm
    cases hrow : last rows r.1 with
    | none => exact absurd (List.mem_map_of_mem hr) (last_eq_none.mp hrow)
    | some row =>
      refine ⟨r.1,row,hrow,name,?_⟩
      rw [name, setAll_feature, hrow]
      rfl

theorem sample_columns (prepared : Prepared repr cols rows) (fresh : Fresh rdb)
    (scans : Scans (rdb.setAll repr rows) scan) (scanned : scan = .ok (some key))
    (jsonError : String) :
    sampleFeatureNames (rdb.setAll repr rows) jsonError scan = .ok cols := by
  obtain ⟨txnId, row, hrow, _, stored⟩ := scanned_row fresh scans scanned
  have member : (txnId,row) ∈ rows := mem_of_last hrow
  have read := unmarshalRaw_dumps (prepared.decimals _ member) (prepared.portable _ member)
  rw [prepared.columns _ member] at read
  simp only [sampleFeatureNames, scanned, stored, read]

/-- The check of `Reload` is exact: a model that loads is installed if and only if it can score
every transaction that was loaded. -/
theorem guard_exact (E : Engine Datum) {env : LoadEnv} {s : Swappable} (hs : s.sampler = true)
    (prepared : Prepared repr cols rows) (fresh : Fresh rdb)
    (scans : Scans (rdb.setAll repr rows) scan) (scanned : scan = .ok (some key))
    {jsonError : String}
    (sampled : env.sampleFeatureNames = sampleFeatureNames (rdb.setAll repr rows) jsonError scan)
    {modelPath featureOrderPath : String} {newR : Runner}
    (built : newRunner E env modelPath featureOrderPath = .ok newR) :
    s.reload E env modelPath featureOrderPath = ({ s with r := newR },.ok newR.modelVersion) ↔
      ∀ txnId row, last rows txnId = some row → ∃ features,
        get (rdb.setAll repr rows) txnId = .ok features ∧ newR.Answers E features := by
  have sample := sample_columns prepared fresh scans scanned jsonError
  rw [← sampled] at sample
  have candidate : s.candidate E env modelPath featureOrderPath =
      (validateAgainstSample (.ok cols) newR.featureOrder).map fun _ => newR := by
    rw [Swappable.candidate, built]
    simp only [hs, if_true, sample, bind, Except.bind, pure, Except.pure]
    cases validateAgainstSample (.ok cols) newR.featureOrder <;> rfl
  have accepted : s.reload E env modelPath featureOrderPath =
      ({ s with r := newR },.ok newR.modelVersion) ↔ ∀ name ∈ newR.featureOrder, name ∈ cols := by
    rw [← validateAgainstSample_ok, Swappable.reload, candidate]
    cases validateAgainstSample (.ok cols) newR.featureOrder with
    | error e => simp [Except.map]
    | ok u => simp [Except.map]
  rw [accepted]
  constructor
  · intro within txnId row hrow
    have reads : Reads (rdb.setAll repr rows) txnId row := reads_row prepared hrow
    obtain ⟨features, read, values⟩ := reads
    have columns := prepared.columns _ (mem_of_last hrow)
    obtain ⟨vec, hvec⟩ := (featureVec_ok_iff features newR.featureOrder).mpr fun name hname =>
      (isSome_features columns values name).mpr (within name hname)
    exact ⟨features,read,vec,hvec,Runner.score_of_featureVec hvec⟩
  · intro answers name hname
    obtain ⟨txnId, row, hrow, _⟩ := scanned_row fresh scans scanned
    obtain ⟨features, read, vec, hvec, _⟩ := answers txnId row hrow
    have reads : Reads (rdb.setAll repr rows) txnId row := reads_row prepared hrow
    obtain ⟨features', read', values⟩ := reads
    cases read.symm.trans read'
    have present := (featureVec_ok_iff features newR.featureOrder).mp ⟨vec,hvec⟩ name hname
    exact (isSome_features (prepared.columns _ (mem_of_last hrow)) values name).mp present

theorem prepared_small : Prepared decimalText ["TransactionAmt","dist1","card1"] smallRows := by
  refine ⟨?_,portable_smallRows,exactDecimals_smallRows⟩
  simp only [smallRows, List.forall_mem_cons]
  exact ⟨rfl,rfl,rfl,rfl,List.forall_mem_nil _⟩

def oneEngine : Engine Datum :=
  ⟨.finite false 0,fun _ _ => .ok (.finite false (1 / 2)),fun _ => "hash"⟩

/-- The new model reads one column of the three. -/
def sampledLoad (sample : Except String (List String)) : LoadEnv :=
  ⟨fun _ => .ok (.ok ["card1"]),fun _ => .ok "k1",.ok (),fun _ => .ok 1,sample⟩

theorem newRunner_sampledLoad (sample : Except String (List String)) :
    newRunner oneEngine (sampledLoad sample) "m" "f" = .ok ⟨1,["card1"],"k1"⟩ := rfl

theorem sampledLoad_sample (sample : Except String (List String)) :
    (sampledLoad sample).sampleFeatureNames = sample := rfl

theorem scans_small :
    Scans (emptyRedis.setAll decimalText smallRows) (.ok (some (featureKey 7))) := by
  intro key same
  have key7 : featureKey 7 = key := Option.some.inj (Except.ok.inj same)
  refine ⟨?_,?_⟩
  · rw [← key7, featureKey, String.toList_append]
    exact List.prefix_append _ _
  · have found : last smallRows 7 = some otherRow := rfl
    rw [← key7, setAll_feature, found, Option.map_some, Option.getD_some]
    intro empty
    exact Option.some_ne_none _ (Except.ok.inj empty)

def swappable : Swappable := ⟨⟨0,[],"c1"⟩,true⟩

theorem guard_exact_small :
    swappable.reload oneEngine (sampledLoad (sampleFeatureNames
        (emptyRedis.setAll decimalText smallRows) "" (.ok (some (featureKey 7))))) "m" "f" =
          ({ swappable with r := ⟨1,["card1"],"k1"⟩ },.ok "k1") ↔
      ∀ txnId row, last smallRows txnId = some row → ∃ features,
        get (emptyRedis.setAll decimalText smallRows) txnId = .ok features ∧
          (⟨1,["card1"],"k1"⟩ : Runner).Answers oneEngine features := by
  have fresh : Fresh emptyRedis := fun _ _ => rfl
  exact guard_exact oneEngine rfl prepared_small fresh scans_small rfl (sampledLoad_sample _)
    (newRunner_sampledLoad _)

end FraudPlatform.Serving
