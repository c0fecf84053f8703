import FraudPlatform.Features.Client
import FraudPlatform.Framework.Overwrite
import FraudPlatform.Framework.Run

namespace FraudPlatform.Features

open Framework Ieee JsonDump Overwrite

/-- A transaction and its row of the prepared frame. -/
abbrev Loaded := Int × FeatureRow

variable {repr : Datum → List Char} {size : Nat}

/-- What `pipe.set` writes for a row. -/
def entry (repr : Datum → List Char) (r : Loaded) : String × Except String (Option (List Char)) :=
  (featureKey r.1,.ok (some (dumps repr r.2)))

def Redis.setAll (repr : Datum → List Char) (rdb : Redis) (rows : List Loaded) : Redis :=
  putAll rdb (rows.map (entry repr))

/-- `pipe.execute()` without a transaction: `none` is a success, `some k` a raise after the server
has run the first `k` commands. An error keeps the store that is left behind. -/
def execute (repr : Datum → List Char) (outcome : Option Nat) (pipe : List Loaded) (rdb : Redis) :
    Except Redis Redis :=
  match outcome with
  | none => .ok (rdb.setAll repr pipe)
  | some k => .error (rdb.setAll repr (pipe.take k))

/-- The loop of the loader and the flush after it; `outcomes` are those of its executes in turn. -/
def loadRows (repr : Datum → List Char) (size : Nat) (outcomes : Nat → Option Nat) :
    List Loaded → Nat → Nat → List Loaded → Redis → Except Redis Redis
  | [], calls, total, pipe, rdb =>
    if total % size ≠ 0 then execute repr (outcomes calls) pipe rdb else .ok rdb
  | r :: rows, calls, total, pipe, rdb =>
    if (total + 1) % size = 0 then do
      let rdb ← execute repr (outcomes calls) (pipe ++ [r]) rdb
      loadRows repr size outcomes rows (calls + 1) (total + 1) [] rdb
    else loadRows repr size outcomes rows calls (total + 1) (pipe ++ [r]) rdb

/-- One run of the loader. -/
def load (repr : Datum → List Char) (size : Nat) (rows : List Loaded) (outcomes : Nat → Option Nat)
    (rdb : Redis) : Except Redis Redis :=
  loadRows repr size outcomes rows 0 0 [] rdb

/-- The store after a run, completed or not. -/
def left : Except Redis Redis → Redis
  | .ok rdb => rdb
  | .error rdb => rdb

theorem setAll_append (rdb : Redis) (rows later : List Loaded) :
    rdb.setAll repr (rows ++ later) = (rdb.setAll repr rows).setAll repr later := by
  rw [Redis.setAll, List.map_append, putAll_append]
  rfl

theorem execute_prefix (repr : Datum → List Char) (outcome : Option Nat) (pipe : List Loaded) (rdb : Redis) :
    execute repr outcome pipe rdb = .ok (rdb.setAll repr pipe) ∨
      ∃ k, execute repr outcome pipe rdb = .error (rdb.setAll repr (pipe.take k)) := by
  cases outcome with
  | none => exact Or.inl rfl
  | some k => exact Or.inr ⟨k,rfl⟩

/-- Whatever the batches, the store has the rows up to some place, and all of them after a
success. -/
theorem loadRows_prefix (positive : 0 < size) (outcomes : Nat → Option Nat) (rows : List Loaded)
    {calls total : Nat} {pipe : List Loaded} {rdb : Redis} (h : pipe.length = total % size) :
    loadRows repr size outcomes rows calls total pipe rdb = .ok (rdb.setAll repr (pipe ++ rows)) ∨
    ∃ m, loadRows repr size outcomes rows calls total pipe rdb =
      .error (rdb.setAll repr ((pipe ++ rows).take m)) := by
  induction rows generalizing calls total pipe rdb with
  | nil =>
    rw [List.append_nil, loadRows]
    split_ifs with rest
    · exact execute_prefix repr (outcomes calls) pipe rdb
    · left
      rw [not_not.mp rest] at h
      rw [List.eq_nil_of_length_eq_zero h]
      rfl
  | cons r rows ih =>
    have same : pipe ++ r :: rows = (pipe ++ [r]) ++ rows := by simp
    rw [same, loadRows]
    split_ifs with full
    · obtain executed | ⟨k, failed⟩ := execute_prefix repr (outcomes calls) (pipe ++ [r]) rdb
      · rw [executed]
        have later := @ih (calls + 1) (total + 1) [] (rdb.setAll repr (pipe ++ [r])) full.symm
        rw [List.nil_append, ← setAll_append] at later
        obtain done | ⟨m, stopped⟩ := later
        · exact Or.inl done
        · rw [← setAll_append, ← List.take_length_add_append] at stopped
          exact Or.inr ⟨_,stopped⟩
      · have cut : (pipe ++ [r]).take k =
            (pipe ++ [r] ++ rows).take (min k (pipe ++ [r]).length) := by
          rw [← List.take_take, List.take_left]
        rw [failed, cut]
        exact Or.inr ⟨_,rfl⟩
    · refine ih ?_
      have step : (total + 1) % size = total % size + 1 := by
        have below := Nat.mod_lt total positive
        rw [← Nat.mod_add_mod] at full ⊢
        apply Nat.mod_eq_of_lt
        by_contra top
        have equal : total % size + 1 = size := by omega
        rw [equal, Nat.mod_self] at full
        exact full rfl
      rw [List.length_append, List.length_singleton, h, step]

theorem load_prefix (positive : 0 < size) (rows : List Loaded) (outcomes : Nat → Option Nat)
    (rdb : Redis) :
    load repr size rows outcomes rdb = .ok (rdb.setAll repr rows) ∨
      ∃ m, load repr size rows outcomes rdb = .error (rdb.setAll repr (rows.take m)) :=
  loadRows_prefix positive outcomes rows (Nat.zero_mod size).symm

theorem int_injective : Function.Injective JsonDump.int := by
  intro m n same
  have both := (number_int m).symm.trans ((congrArg JsonScan.number same).trans (number_int n))
  simp only [Option.some.injEq, Prod.mk.injEq, Nat.cast_inj, decide_eq_decide, and_true] at both
  omega

theorem featureKey_injective : Function.Injective featureKey := by
  intro m n same
  have texts := congrArg String.toList same
  simp only [featureKey, String.toList_append, String.toList_ofList, List.append_cancel_left_eq]
    at texts
  exact int_injective texts

/-- The store says of a transaction what its last row says. -/
theorem setAll_feature (rdb : Redis) (rows : List Loaded) (txnId : Int) :
    rdb.setAll repr rows (featureKey txnId) =
      ((last rows txnId).map fun row => .ok (some (dumps repr row))).getD
        (rdb (featureKey txnId)) := by
  have named := last_map featureKey_injective
    (fun row => (.ok (some (dumps repr row)) : Except String (Option (List Char)))) rows txnId
  rw [Redis.setAll, putAll_apply]
  exact congrArg (Option.getD · (rdb (featureKey txnId))) named

theorem get_congr {rdb rdb' : Redis} {txnId : Int}
    (h : rdb (featureKey txnId) = rdb' (featureKey txnId)) : get rdb txnId = get rdb' txnId := by
  rw [get, get, h]

/-- Any runs of the loader over one frame leave rows of that frame. -/
theorem attempts_left (positive : 0 < size) (rows : List Loaded) (rdb : Redis)
    (attempts : List (Nat → Option Nat)) :
    ∃ put, (∀ r ∈ put, r ∈ rows) ∧
      run (fun rdb outcomes => left (load repr size rows outcomes rdb)) rdb attempts =
        rdb.setAll repr put := by
  induction attempts generalizing rdb with
  | nil => exact ⟨[],nofun,rfl⟩
  | cons outcomes attempts ih =>
    obtain ⟨m, first⟩ : ∃ m, left (load repr size rows outcomes rdb) =
        rdb.setAll repr (rows.take m) := by
      obtain done | ⟨m, stopped⟩ := load_prefix positive rows outcomes rdb
      · refine ⟨rows.length,?_⟩
        rw [done, List.take_length]
        rfl
      · exact ⟨m,by rw [stopped]; rfl⟩
    obtain ⟨put, sound, same⟩ := ih (rdb.setAll repr (rows.take m))
    refine ⟨rows.take m ++ put,?_,?_⟩
    · intro r hr
      obtain early | later := List.mem_append.mp hr
      · exact List.mem_of_mem_take early
      · exact sound r later
    · rw [run_cons, first, same, ← setAll_append]

/-- `Get` has the keys of a row and the `float32` values. -/
def Reads (rdb : Redis) (txnId : Int) (row : FeatureRow) : Prop :=
  ∃ features, get rdb txnId = .ok features ∧
    ∀ key, features key = (row.cells.lookup key).map Cell.float32

theorem reads_setAll {rdb : Redis} {rows : List Loaded} {txnId : Int} {row : FeatureRow}
    (h : last rows txnId = some row) (decimals : ExactDecimals repr row) :
    Reads (rdb.setAll repr rows) txnId row ↔ ∀ m ∈ row.cells, m.2.Portable := by
  have at_key : rdb.setAll repr rows (featureKey txnId) =
      (rdb.load repr txnId row) (featureKey txnId) := by
    rw [setAll_feature, h, Redis.load, if_pos rfl]
    rfl
  have survives : Survives rdb repr txnId row ↔ _ := survives_iff decimals
  rw [Survives, ← get_congr at_key] at survives
  rw [Reads, survives]
  exact forall₂_congr fun m _ => portable_iff m.2

/-- Once a run completes, the store is as after one unbroken load without batches, however many
runs broke off before it: `Get` reads the last row of each transaction if it is portable, and
other transactions as before. -/
theorem load_recovers (positive : 0 < size) (rows : List Loaded) (rdb : Redis)
    (attempts : List (Nat → Option Nat)) (outcomes : Nat → Option Nat) {after : Redis}
    (completed : load repr size rows outcomes
      (run (fun rdb outcomes => left (load repr size rows outcomes rdb)) rdb attempts) = .ok after) :
    after = rdb.setAll repr rows ∧
    (∀ txnId row, last rows txnId = some row → ExactDecimals repr row →
      (Reads after txnId row ↔ ∀ m ∈ row.cells, m.2.Portable)) ∧
    ∀ txnId, last rows txnId = none → get after txnId = get rdb txnId := by
  have attempted : ∃ put, (∀ r ∈ put, r ∈ rows) ∧
      run (fun rdb outcomes => left (load repr size rows outcomes rdb)) rdb attempts =
        rdb.setAll repr put := attempts_left positive rows rdb attempts
  obtain ⟨put, sound, same⟩ := attempted
  have whole : after = rdb.setAll repr rows := by
    obtain done | ⟨m, stopped⟩ := load_prefix positive rows outcomes (rdb.setAll repr put)
    · rw [same, done] at completed
      rw [← Except.ok.inj completed]
      apply putAll_again
      intro e he
      obtain ⟨r, hr, rfl⟩ := List.mem_map.mp he
      rw [List.map_map]
      exact List.mem_map_of_mem (sound r hr)
    · rw [same, stopped] at completed
      cases completed
  refine ⟨whole,?_,?_⟩
  · intro txnId row hrow decimals
    rw [whole]
    exact reads_setAll hrow decimals
  · intro txnId none
    apply get_congr
    rw [whole, setAll_feature, none]
    rfl

def emptyRedis : Redis := fun _ => .ok none

/-- The columns of `smallRow`, with other values. -/
def otherRow : FeatureRow :=
  ⟨[("TransactionAmt",.float (.finite false 0)),("dist1",.float (.finite false (1 / 2))),
    ("card1",.int 5)],by decide⟩

/-- The transaction 7 comes twice. -/
def smallRows : List Loaded := [(7,smallRow),(8,otherRow),(9,smallRow),(7,otherRow)]

theorem exactDecimals_otherRow : ExactDecimals decimalText otherRow := by
  intro m hm negative magnitude h
  simp only [otherRow, List.mem_cons, List.not_mem_nil, or_false] at hm
  obtain rfl | rfl | rfl := hm
  · cases h
    exact exact_decimalText.2.2
  · cases h
    exact exact_decimalText.2.1
  · cases h

theorem exactDecimals_smallRows : ∀ r ∈ smallRows, ExactDecimals decimalText r.2 := by
  simp only [smallRows, List.forall_mem_cons]
  exact ⟨exactDecimals_smallRow,exactDecimals_otherRow,exactDecimals_smallRow,
    exactDecimals_otherRow,List.forall_mem_nil _⟩

theorem portable_smallRows : ∀ r ∈ smallRows, ∀ m ∈ r.2.cells, m.2.Portable := by
  have three : Cell.Portable (.int 3) := portable_of_small (by decide)
  have five : Cell.Portable (.int 5) := portable_of_small (by decide)
  simp only [smallRows, smallRow, otherRow, List.forall_mem_cons]
  have none : ∀ m ∈ ([] : List (String × Cell)), m.2.Portable := List.forall_mem_nil _
  exact ⟨⟨trivial,trivial,three,none⟩,⟨trivial,trivial,five,none⟩,⟨trivial,trivial,three,none⟩,
    ⟨trivial,trivial,five,none⟩,List.forall_mem_nil _⟩

/-- With two rows a batch, the first run breaks off between its batches. -/
theorem load_recovers_small :
    Reads (emptyRedis.setAll decimalText smallRows) 7 otherRow ∧
      Reads (emptyRedis.setAll decimalText smallRows) 9 smallRow := by
  have completed : load decimalText 2 smallRows (fun _ => none)
      (run (fun rdb outcomes => left (load decimalText 2 smallRows outcomes rdb)) emptyRedis
        [fun call => if call = 0 then none else some 0]) =
      .ok ((((emptyRedis.setAll decimalText [(7,smallRow),(8,otherRow)]).setAll decimalText
        []).setAll decimalText [(7,smallRow),(8,otherRow)]).setAll decimalText
          [(9,smallRow),(7,otherRow)]) := rfl
  obtain ⟨whole, reads, _⟩ := load_recovers (by decide) smallRows emptyRedis _ _ completed
  rw [whole] at reads
  have found (txnId : Int) (row : FeatureRow) (h : last smallRows txnId = some row) :
      Reads (emptyRedis.setAll decimalText smallRows) txnId row :=
    (reads txnId row h (exactDecimals_smallRows _ (mem_of_last h))).mpr
      (portable_smallRows _ (mem_of_last h))
  exact ⟨found 7 otherRow rfl,found 9 smallRow rfl⟩

end FraudPlatform.Features
