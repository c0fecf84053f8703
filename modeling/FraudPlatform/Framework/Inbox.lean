import FraudPlatform.Framework.Channel
import FraudPlatform.Framework.Slots
import Mathlib.Data.List.Nodup
import Mathlib.Data.List.Perm.Subperm

namespace Framework

/-- An item together with the call that posted it. -/
structure Posted (τ : Type*) where
  caller : Nat
  item : τ
  deriving DecidableEq, Repr

/-- A call that posts an item without waiting. -/
inductive Call (τ ε : Type*)
  | pending (item : τ)
  | accepted (item : τ)
  | refused (item : τ) (err : ε)
  deriving DecidableEq, Repr

def Call.item {τ ε : Type*} : Call τ ε → τ
  | .pending item | .accepted item | .refused item _ => item

def Call.isPending {τ ε : Type*} : Call τ ε → Bool
  | .pending _ => true
  | _ => false

def Call.isAccepted {τ ε : Type*} : Call τ ε → Bool
  | .accepted _ => true
  | _ => false

def Call.isRefused {τ ε : Type*} : Call τ ε → Bool
  | .refused _ _ => true
  | _ => false

section Calls

variable {τ ε : Type*}

/-- The accepted calls and the accepted items are the same, each once. -/
structure Matches (calls : List (Call τ ε)) (accepted : List (Posted τ)) : Prop where
  once : (accepted.map (·.caller)).Nodup
  iff : ∀ i item, calls[i]? = some (.accepted item) ↔ ⟨i,item⟩ ∈ accepted

variable {calls : List (Call τ ε)} {accepted : List (Posted τ)} {i : Nat} {item : τ}

theorem Matches.append (h : Matches calls accepted) (item : τ) :
    Matches (calls ++ [.pending item]) accepted := by
  refine ⟨h.once,fun j x => ?_⟩
  rw [← h.iff j x, List.getElem?_append]
  split_ifs with hj
  · rfl
  · rw [List.getElem?_eq_none (Nat.le_of_not_lt hj)]
    cases hk : j - calls.length with
    | zero => simp
    | succ k => simp

theorem Matches.not_accepted (h : Matches calls accepted) (hi : calls[i]? = some (.pending item)) :
    i ∉ accepted.map (·.caller) := by
  intro hm
  obtain ⟨⟨j, x⟩, hx, hj⟩ := List.mem_map.mp hm
  obtain rfl : j = i := hj
  have found := (h.iff j x).mpr hx
  rw [hi] at found
  cases found

theorem Matches.accept (h : Matches calls accepted) (hi : calls[i]? = some (.pending item)) :
    Matches (calls.set i (.accepted item)) (accepted ++ [⟨i,item⟩]) := by
  have fresh := h.not_accepted hi
  have bound := (List.getElem?_eq_some_iff.mp hi).1
  constructor
  · rw [List.map_append, List.map_singleton]
    exact List.nodup_append_comm.mp (List.nodup_cons.mpr ⟨fresh,h.once⟩)
  · intro j x
    rw [List.getElem?_set, List.mem_append, List.mem_singleton, ← h.iff j x]
    by_cases hj : i = j
    · subst hj
      rw [if_pos rfl, if_pos bound, hi]
      simp [eq_comm]
    · simp [hj, Ne.symm hj]

theorem Matches.refuse (h : Matches calls accepted) (hi : calls[i]? = some (.pending item))
    (err : ε) : Matches (calls.set i (.refused item err)) accepted := by
  have bound := (List.getElem?_eq_some_iff.mp hi).1
  refine ⟨h.once,fun j x => ?_⟩
  rw [List.getElem?_set, ← h.iff j x]
  by_cases hj : i = j
  · subst hj
    rw [if_pos rfl, if_pos bound, hi]
    simp
  · simp [hj]

/-- The accepted calls by their places. -/
theorem Matches.callers (h : Matches calls accepted) : (accepted.map (·.caller)).Perm
    ((List.range calls.length).filter fun i => calls[i]?.any Call.isAccepted) := by
  refine (List.perm_ext_iff_of_nodup h.once (List.nodup_range.filter _)).mpr fun i => ?_
  rw [List.mem_filter, List.mem_range]
  constructor
  · intro hi
    obtain ⟨p, hp, rfl⟩ := List.mem_map.mp hi
    have found := (h.iff p.caller p.item).mpr hp
    exact ⟨(List.getElem?_eq_some_iff.mp found).1,by rw [found]; rfl⟩
  · rintro ⟨_, hi⟩
    cases hc : calls[i]? with
    | none => rw [hc] at hi; cases hi
    | some c =>
      rw [hc] at hi
      cases c with
      | accepted item => exact List.mem_map.mpr ⟨_,(h.iff i item).mp hc,rfl⟩
      | pending item => cases hi
      | refused item err => cases hi

/-- The accepted items are those of the accepted calls, each call for itself. -/
theorem Matches.perm (h : Matches calls accepted) :
    (accepted.map (·.item)).Perm ((calls.filter Call.isAccepted).map Call.item) := by
  have read := h.callers.map (calls[·]?)
  rw [map_places, List.map_map] at read
  have items := read.map (Option.map Call.item)
  rw [List.map_map, List.map_map] at items
  have part : accepted.map (Option.map Call.item ∘ (calls[·]?) ∘ (·.caller)) =
      (accepted.map (·.item)).map some := by
    rw [List.map_map]
    refine List.map_congr_left fun p hp => ?_
    have found := (h.iff p.caller p.item).mpr hp
    simp only [Function.comp_apply, found, Option.map_some, Call.item]
  have whole : (calls.filter Call.isAccepted).map (Option.map Call.item ∘ some) =
      ((calls.filter Call.isAccepted).map Call.item).map some := by
    rw [List.map_map]
    rfl
  rw [part, whole] at items
  exact (List.map_perm_map_iff fun _ _ => Option.some.inj).mp items

theorem Matches.subperm (h : Matches calls accepted) :
    (accepted.map (·.item)).Subperm (calls.map Call.item) :=
  h.perm.subperm.trans (List.filter_sublist.map Call.item).subperm

theorem pending_of_set {c : Call τ ε} (hc : ∀ x, c ≠ .pending x) {j : Nat} {x : τ}
    (h : (calls.set i c)[j]? = some (.pending x)) : calls[j]? = some (.pending x) := by
  rw [List.getElem?_set] at h
  split_ifs at h with hj hl
  · exact absurd (Option.some.inj h) (hc x)
  · exact h

end Calls

/-- A channel that any number of calls post to without waiting, and the signal that closes it
for its consumers. Posting stays possible after the signal. The last four fields are notes:
what was accepted, what was taken, and which calls had not returned when the signal came. -/
structure Inbox (τ ε : Type*) where
  channel : Channel (Posted τ)
  calls : List (Call τ ε)
  closed : Bool
  accepted : List (Posted τ)
  taken : List (Posted τ)
  late : List Nat
  ledger : accepted = taken ++ channel.buffer
  matched : Matches calls accepted
  late_of_pending : closed → ∀ i item, calls[i]? = some (.pending item) → i ∈ late

namespace Inbox

variable {τ ε : Type*}

def new (capacity : Nat) : Inbox τ ε :=
  ⟨.make capacity,[],false,[],[],[],rfl,⟨by simp,by simp⟩,by simp⟩

def buffer (b : Inbox τ ε) : List (Posted τ) := b.channel.buffer

/-- No room: the case a call falls through to. -/
def full (b : Inbox τ ε) : Bool := b.channel.capacity ≤ b.buffer.length

/-- A call begins. -/
def call (b : Inbox τ ε) (item : τ) : Inbox τ ε :=
  { b with
    calls := b.calls ++ [.pending item]
    late := if b.closed then b.late ++ [b.calls.length] else b.late
    matched := b.matched.append item
    late_of_pending := by
      intro hc i x hi
      rw [if_pos hc]
      rw [List.getElem?_append] at hi
      split_ifs at hi with hl
      · exact List.mem_append_left _ (b.late_of_pending hc i x hi)
      · have hb := (List.getElem?_eq_some_iff.mp hi).1
        rw [List.length_singleton] at hb
        exact List.mem_append_right _ (List.mem_singleton.mpr (by omega)) }

/-- The call `i` sends its item into the buffer. -/
def post (b : Inbox τ ε) (i : Nat) : Option (Inbox τ ε) :=
  match hi : b.calls[i]? with
  | some (.pending item) =>
    match hc : b.channel.send? ⟨i,item⟩ with
    | some channel => some
      { b with
        channel
        calls := b.calls.set i (.accepted item)
        accepted := b.accepted ++ [⟨i,item⟩]
        ledger := by rw [b.ledger, Channel.send?_buffer hc, List.append_assoc]
        matched := b.matched.accept hi
        late_of_pending := fun hc j x hj => b.late_of_pending hc j x (pending_of_set (by simp) hj) }
    | none => none
  | _ => none

/-- The call `i` gives its item to a consumer that waits at the empty channel. -/
def hand (b : Inbox τ ε) (i : Nat) : Option (Posted τ × Inbox τ ε) :=
  match hi : b.calls[i]? with
  | some (.pending item) =>
    if he : b.channel.buffer = [] then some (⟨i,item⟩,
      { b with
        calls := b.calls.set i (.accepted item)
        accepted := b.accepted ++ [⟨i,item⟩]
        taken := b.taken ++ [⟨i,item⟩]
        ledger := by rw [b.ledger, he, List.append_nil, List.append_nil]
        matched := b.matched.accept hi
        late_of_pending := fun hc j x hj => b.late_of_pending hc j x (pending_of_set (by simp) hj) })
    else none
  | _ => none

/-- The call `i` returns an error instead. -/
def refuse (b : Inbox τ ε) (i : Nat) (err : ε) : Option (Inbox τ ε) :=
  match hi : b.calls[i]? with
  | some (.pending item) => some
    { b with
      calls := b.calls.set i (.refused item err)
      matched := b.matched.refuse hi err
      late_of_pending := fun hc j x hj => b.late_of_pending hc j x (pending_of_set (by simp) hj) }
  | _ => none

/-- A consumer takes the oldest item. -/
def take (b : Inbox τ ε) : Option (Posted τ × Inbox τ ε) :=
  match hc : b.channel.recv? with
  | some (p, channel) => some (p,
    { b with
      channel
      taken := b.taken ++ [p]
      ledger := by rw [b.ledger, Channel.recv?_buffer hc, List.append_assoc]; rfl })
  | none => none

/-- The places of the calls that have not returned. -/
def pendingCalls (b : Inbox τ ε) : List Nat :=
  (List.range b.calls.length).filter fun i =>
    match b.calls[i]? with
    | some (.pending _) => true
    | _ => false

theorem mem_pendingCalls {b : Inbox τ ε} {i : Nat} {item : τ}
    (h : b.calls[i]? = some (.pending item)) : i ∈ b.pendingCalls := by
  rw [pendingCalls, List.mem_filter, List.mem_range]
  exact ⟨(List.getElem?_eq_some_iff.mp h).1,by rw [h]⟩

theorem pendingCalls_eq_nil {b : Inbox τ ε}
    (idle : ∀ (i : Nat) (item : τ), b.calls[i]? ≠ some (.pending item)) : b.pendingCalls = [] := by
  refine List.filter_eq_nil_iff.mpr fun i _ => ?_
  split
  · next item pending => exact absurd pending (idle i item)
  · exact Bool.false_ne_true

def close (b : Inbox τ ε) : Inbox τ ε :=
  { b with
    closed := true
    late := b.late ++ b.pendingCalls
    late_of_pending := fun _ _ _ hi => List.mem_append_right _ (mem_pendingCalls hi) }

/-- What is left in the channel came from calls that had not returned when it was closed. -/
def OnlyLate (b : Inbox τ ε) : Prop := ∀ p ∈ b.buffer, p.caller ∈ b.late

theorem onlyLate_of_empty {b : Inbox τ ε} (h : b.buffer = []) : b.OnlyLate := by
  intro p hp
  rw [h] at hp
  cases hp

variable {b c : Inbox τ ε} {i : Nat} {p : Posted τ} {err : ε}

@[simp] theorem new_taken (n : Nat) : (new n : Inbox τ ε).taken = [] := rfl

@[simp] theorem call_taken (item : τ) : (b.call item).taken = b.taken := rfl

@[simp] theorem close_taken : b.close.taken = b.taken := rfl

theorem close_late : b.close.late = b.late ++ b.pendingCalls := rfl

theorem call_onlyLate (item : τ) (h : b.OnlyLate) : (b.call item).OnlyLate := by
  intro p hp
  have old := h p hp
  simp only [call]
  split_ifs
  · exact List.mem_append_left _ old
  · exact old

theorem close_onlyLate (h : b.OnlyLate) : b.close.OnlyLate :=
  fun p hp => List.mem_append_left _ (h p hp)

/-- Where a call that has returned from the channel stands among the others. -/
structure Settled (b c : Inbox τ ε) (i : Nat) (item : τ) (call : Call τ ε) : Prop where
  pending : b.calls[i]? = some (.pending item)
  calls : c.calls = b.calls.set i call
  closed : c.closed = b.closed
  late : c.late = b.late

/-- What another call returned stays. -/
theorem Settled.keeps {item : τ} {call result : Call τ ε} {j : Nat}
    (h : Settled b c i item call) (hj : b.calls[j]? = some result)
    (returned : ∀ x, result ≠ .pending x) : c.calls[j]? = some result := by
  have ne : i ≠ j := by
    rintro rfl
    rw [h.pending] at hj
    exact returned item (Option.some.inj hj).symm
  rw [h.calls, List.getElem?_set_ne ne, hj]

theorem call_keeps {result : Call τ ε} {j : Nat} (item : τ) (hj : b.calls[j]? = some result) :
    (b.call item).calls[j]? = some result := by
  change (b.calls ++ [_])[j]? = some result
  rw [List.getElem?_append_left (List.getElem?_eq_some_iff.mp hj).1, hj]

theorem post_spec (h : b.post i = some c) :
    ∃ item, Settled b c i item (.accepted item) ∧ c.buffer = b.buffer ++ [⟨i,item⟩] ∧
      c.taken = b.taken := by
  unfold post at h
  split at h
  · next item hi =>
    split at h
    · next channel hc =>
      cases h
      exact ⟨item,⟨hi,rfl,rfl,rfl⟩,Channel.send?_buffer hc,rfl⟩
    · cases h
  · cases h

theorem hand_spec (h : b.hand i = some (p,c)) :
    ∃ item, p = ⟨i,item⟩ ∧ Settled b c i item (.accepted item) ∧ b.buffer = [] ∧
      c.buffer = [] ∧ c.taken = b.taken ++ [p] := by
  unfold hand at h
  split at h
  · next item hi =>
    split_ifs at h with he
    cases h
    exact ⟨item,rfl,⟨hi,rfl,rfl,rfl⟩,he,he,rfl⟩
  · cases h

theorem refuse_spec (h : b.refuse i err = some c) :
    ∃ item, Settled b c i item (.refused item err) ∧ c.buffer = b.buffer ∧
      c.taken = b.taken := by
  unfold refuse at h
  split at h
  · next item hi =>
    cases h
    exact ⟨item,⟨hi,rfl,rfl,rfl⟩,rfl,rfl⟩
  · cases h

/-- A step of a call under way, or of a consumer. -/
inductive Moved (b : Inbox τ ε) : Inbox τ ε → Prop
  | same : Moved b b
  | posted {i : Nat} {c : Inbox τ ε} : b.post i = some c → Moved b c
  | handed {i : Nat} {p : Posted τ} {c : Inbox τ ε} : b.hand i = some (p,c) → Moved b c
  | refused {i : Nat} {err : ε} {c : Inbox τ ε} : b.refuse i err = some c → Moved b c
  | took {p : Posted τ} {c : Inbox τ ε} : b.take = some (p,c) → Moved b c

theorem refuse_eq_none (h : ∀ x, b.calls[i]? ≠ some (.pending x)) : b.refuse i err = none := by
  unfold refuse
  split
  · next item hi => exact absurd hi (h item)
  · rfl

theorem refuse_ne_none {item : τ} (h : b.calls[i]? = some (.pending item)) :
    b.refuse i err ≠ none := by
  unfold refuse
  split
  · exact nofun
  · next hi => exact absurd h (hi item)

/-- Only a full channel refuses a send. -/
theorem post_eq_none {item : τ} (h : b.calls[i]? = some (.pending item)) (hp : b.post i = none) :
    b.full = true := by
  unfold post at hp
  split at hp
  · split at hp
    · cases hp
    · next hc => exact decide_eq_true (Channel.send?_eq_none.mp hc)
  · next hi => exact absurd h (hi item)

theorem take_spec (h : b.take = some (p,c)) :
    b.buffer = p :: c.buffer ∧ c.taken = b.taken ++ [p] ∧ c.calls = b.calls ∧
      c.closed = b.closed ∧ c.late = b.late := by
  unfold take at h
  split at h
  · next q channel hc =>
    cases h
    exact ⟨Channel.recv?_buffer hc,rfl,rfl,rfl,rfl⟩
  · cases h

theorem exists_hand {item : τ} (h : b.calls[i]? = some (.pending item)) (empty : b.buffer = []) :
    ∃ p c, b.hand i = some (p,c) := by
  unfold hand
  split
  · have he : b.channel.buffer = [] := empty
    rw [dif_pos he]
    exact ⟨_,_,rfl⟩
  · next hi => exact absurd h (hi item)

theorem exists_take (h : b.buffer ≠ []) : ∃ p c, b.take = some (p,c) := by
  unfold take
  split
  · next q channel hc => exact ⟨q,_,rfl⟩
  · next hc => exact absurd (Channel.recv?_eq_none.mp hc) h

theorem Settled.length {item : τ} {result : Call τ ε} (h : Settled b c i item result) :
    c.calls.length = b.calls.length := by
  rw [h.calls, List.length_set]

/-- A call keeps its item, and what it has returned. -/
theorem Settled.follow {item : τ} {result : Call τ ε} (h : Settled b c i item result)
    (hr : result.item = item) {j : Nat} {x : Call τ ε} (hj : b.calls[j]? = some x) :
    ∃ y, c.calls[j]? = some y ∧ y.item = x.item ∧ (x.isPending = false → y = x) := by
  by_cases ne : i = j
  · subst ne
    rw [h.pending] at hj
    cases hj
    refine ⟨result,?_,hr,nofun⟩
    rw [h.calls, List.getElem?_set_self (List.getElem?_eq_some_iff.mp h.pending).1]
  · exact ⟨x,by rw [h.calls, List.getElem?_set_ne ne, hj],rfl,fun _ => rfl⟩

theorem Moved.length (h : Moved b c) : c.calls.length = b.calls.length := by
  cases h with
  | same => rfl
  | posted h =>
    obtain ⟨item, settled, _⟩ := post_spec h
    exact settled.length
  | handed h =>
    obtain ⟨item, _, settled, _⟩ := hand_spec h
    exact settled.length
  | refused h =>
    obtain ⟨item, settled, _⟩ := refuse_spec h
    exact settled.length
  | took h => rw [(take_spec h).2.2.1]

theorem Moved.closed (h : Moved b c) : c.closed = b.closed := by
  cases h with
  | same => rfl
  | posted h =>
    obtain ⟨item, settled, _⟩ := post_spec h
    exact settled.closed
  | handed h =>
    obtain ⟨item, _, settled, _⟩ := hand_spec h
    exact settled.closed
  | refused h =>
    obtain ⟨item, settled, _⟩ := refuse_spec h
    exact settled.closed
  | took h => exact (take_spec h).2.2.2.1

theorem Moved.late (h : Moved b c) : c.late = b.late := by
  cases h with
  | same => rfl
  | posted h =>
    obtain ⟨item, settled, _⟩ := post_spec h
    exact settled.late
  | handed h =>
    obtain ⟨item, _, settled, _⟩ := hand_spec h
    exact settled.late
  | refused h =>
    obtain ⟨item, settled, _⟩ := refuse_spec h
    exact settled.late
  | took h => exact (take_spec h).2.2.2.2

theorem Moved.follow (h : Moved b c) {j : Nat} {x : Call τ ε} (hj : b.calls[j]? = some x) :
    ∃ y, c.calls[j]? = some y ∧ y.item = x.item ∧ (x.isPending = false → y = x) := by
  cases h with
  | same => exact ⟨x,hj,rfl,fun _ => rfl⟩
  | posted h =>
    obtain ⟨item, settled, _⟩ := post_spec h
    exact settled.follow rfl hj
  | handed h =>
    obtain ⟨item, _, settled, _⟩ := hand_spec h
    exact settled.follow rfl hj
  | refused h =>
    obtain ⟨item, settled, _⟩ := refuse_spec h
    exact settled.follow rfl hj
  | took h => exact ⟨x,by rw [(take_spec h).2.2.1, hj],rfl,fun _ => rfl⟩

/-- A call keeps its item. -/
theorem Moved.items (h : Moved b c) : c.calls.map Call.item = b.calls.map Call.item := by
  apply List.ext_getElem (by rw [List.length_map, List.length_map, h.length])
  intro i hc hb
  rw [List.length_map] at hb hc
  obtain ⟨y, hy, same, _⟩ := h.follow (List.getElem?_eq_getElem hb)
  rw [List.getElem?_eq_getElem hc, Option.some.injEq] at hy
  rw [List.getElem_map, List.getElem_map, hy, same]

/-- A call that is pending afterwards was pending before. -/
theorem Moved.pending (h : Moved b c) {j : Nat} {item : τ}
    (hj : c.calls[j]? = some (.pending item)) : b.calls[j]? = some (.pending item) := by
  have bound := (List.getElem?_eq_some_iff.mp hj).1
  rw [h.length] at bound
  have hx := List.getElem?_eq_getElem bound
  obtain ⟨y, hy, same, stays⟩ := h.follow hx
  obtain rfl : y = .pending item := Option.some.inj (hy.symm.trans hj)
  cases hx' : b.calls[j] with
  | pending item' =>
    rw [hx'] at same
    obtain rfl : item = item' := same
    rw [hx, hx']
  | accepted item' =>
    rw [hx'] at stays
    cases stays rfl
  | refused item' err =>
    rw [hx'] at stays
    cases stays rfl

/-- With no call at work, an empty channel stays empty. -/
theorem Moved.empty (h : Moved b c)
    (idle : ∀ (j : Nat) (item : τ), b.calls[j]? ≠ some (.pending item)) (empty : b.buffer = []) :
    c.buffer = [] := by
  cases h with
  | same => exact empty
  | posted h =>
    obtain ⟨item, settled, _⟩ := post_spec h
    exact absurd settled.pending (idle _ item)
  | handed h =>
    obtain ⟨item, _, _, _, left, _⟩ := hand_spec h
    exact left
  | refused h =>
    obtain ⟨item, _, same, _⟩ := refuse_spec h
    exact same.trans empty
  | took h => cases (take_spec h).1.symm.trans empty

/-- A call that still posts after the signal had not returned before it. -/
theorem post_onlyLate (h : b.post i = some c) (hc : b.closed = true) (hb : b.OnlyLate) :
    c.OnlyLate := by
  obtain ⟨item, settled, buffer, _⟩ := post_spec h
  intro p hp
  rw [buffer] at hp
  rw [settled.late]
  obtain old | new := List.mem_append.mp hp
  · exact hb p old
  · rw [List.mem_singleton.mp new]
    exact b.late_of_pending hc i item settled.pending

theorem take_onlyLate (h : b.take = some (p,c)) (hb : b.OnlyLate) : c.OnlyLate := by
  obtain ⟨buffer, _, _, _, late⟩ := take_spec h
  intro q hq
  rw [late]
  exact hb q (by rw [buffer]; exact List.mem_cons_of_mem p hq)

theorem refuse_onlyLate (h : b.refuse i err = some c) (hb : b.OnlyLate) : c.OnlyLate := by
  obtain ⟨item, settled, buffer, _⟩ := refuse_spec h
  intro p hp
  rw [buffer] at hp
  rw [settled.late]
  exact hb p hp

theorem hand_onlyLate (h : b.hand i = some (p,c)) : c.OnlyLate := by
  obtain ⟨item, _, _, _, empty, _⟩ := hand_spec h
  exact onlyLate_of_empty empty

theorem Moved.onlyLate (h : Moved b c) (closed : b.closed = true) (hb : b.OnlyLate) :
    c.OnlyLate := by
  cases h with
  | same => exact hb
  | posted h => exact post_onlyLate h closed hb
  | handed h => exact hand_onlyLate h
  | refused h => exact refuse_onlyLate h hb
  | took h => exact take_onlyLate h hb

end Inbox

end Framework
