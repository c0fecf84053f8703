import FraudPlatform.Router.Dispatcher

namespace FraudPlatform.Router

open Framework

variable {τ : Type} {d : Dispatcher τ} {ch : Inbox τ Unit}

/-- Where the accepted tasks are, between any two steps. -/
structure Dispatcher.Ledger (d : Dispatcher τ) : Prop where
  taken : d.ch.taken.Perm (d.executed.map Prod.snd ++ d.workers.filterMap Worker.task)
  done : ∀ w ∈ d.workers, w.sawDone → d.ch.closed
  left : (∃ w ∈ d.workers, w.sawExit) → d.ch.OnlyLate
  shutdown : d.shutdown → ∀ w ∈ d.workers, w.sawExit

/-- What the calls have returned, and what the counters say. -/
structure Dispatcher.Counted (d : Dispatcher τ) : Prop where
  once : (d.returned.map Prod.fst).Nodup
  accepted : ∀ i, (i,true) ∈ d.returned → ∃ t, d.ch.calls[i]? = some (.accepted t)
  refused : ∀ i, (i,false) ∈ d.returned → ∃ t, d.ch.calls[i]? = some (.refused t ())
  sent : d.sent = d.returned.countP (·.2)
  dropped : d.dropped = d.returned.countP (!·.2)

theorem ledger_new (bufferSize workers : Nat) : (NewDispatcher bufferSize workers : Dispatcher τ).Ledger := by
  have selecting (w : Worker τ) (h : w ∈ List.replicate workers .selecting) : w = .selecting :=
    List.eq_of_mem_replicate h
  refine ⟨?_,fun w hw hd => ?_,?_,nofun⟩
  · have idle : (List.replicate workers (.selecting : Worker τ)).filterMap Worker.task = [] :=
      List.filterMap_eq_nil_iff.mpr fun w hw => by rw [selecting w hw]; rfl
    simp only [NewDispatcher, Inbox.new_taken, List.map_nil, idle, List.append_nil]
    exact List.Perm.refl []
  · rw [selecting w hw] at hd
    cases hd
  · rintro ⟨w, hw, he⟩
    rw [selecting w hw] at he
    cases he

theorem sawDone_of_sawExit {w : Worker τ} (h : w.sawExit) : w.sawDone := by
  cases w with
  | exited => rfl
  | _ => cases h

/-- The step of a caller leaves the workers alone. -/
theorem ledger_caller (h : d.Ledger) (taken : ch.taken = d.ch.taken)
    (closed : d.ch.closed → ch.closed)
    (left : d.ch.closed → d.ch.OnlyLate → ch.OnlyLate) : { d with ch }.Ledger := by
  refine ⟨taken ▸ h.taken,fun w hw hd => closed (h.done w hw hd),?_,h.shutdown⟩
  rintro ⟨w, hw, he⟩
  exact left (h.done w hw (sawDone_of_sawExit he)) (h.left ⟨w,hw,he⟩)

/-- The step of a worker that has not exited leaves the other workers alone. -/
theorem ledger_worker {w : Nat} {x y : Worker τ} {executed : List (Nat × Posted τ)}
    (h : d.Ledger) (hw : d.workers[w]? = some x) (hx : ¬x.sawExit) (closed : ch.closed = d.ch.closed)
    (hy : y.sawDone → d.ch.closed) (late : d.ch.OnlyLate → ch.OnlyLate)
    (exit : y.sawExit → ch.OnlyLate)
    (taken : ch.taken.Perm
      (executed.map Prod.snd ++ (d.workers.set w y).filterMap Worker.task)) :
    { d with ch, workers := d.workers.set w y, executed }.Ledger := by
  refine ⟨taken,?_,?_,fun hs => absurd (h.shutdown hs x (List.mem_of_getElem? hw)) hx⟩
  · intro v hv hd
    change ch.closed
    rw [closed]
    exact forall_mem_set (P := fun v => v.sawDone → d.ch.closed) h.done hy v hv hd
  · rintro ⟨v, hv, he⟩
    obtain old | rfl := List.mem_or_eq_of_mem_set hv
    · exact late (h.left ⟨v,old,he⟩)
    · exact exit he

/-- The same step, when it takes the oldest task or none. -/
theorem ledger_takes {w : Nat} {x : Worker τ} {p : Posted τ} {drain : Bool} (h : d.Ledger)
    (hw : d.workers[w]? = some x) (hx : ¬x.sawExit) (ht : x.task = none)
    (hd : drain = true → x.sawDone) (closed : ch.closed = d.ch.closed)
    (late : d.ch.OnlyLate → ch.OnlyLate) (taken : ch.taken = d.ch.taken ++ [p]) :
    { d with ch, workers := d.workers.set w (.executing p drain) }.Ledger := by
  refine ledger_worker h hw hx closed ?_ late nofun ?_
  · intro hdone
    apply h.done x (List.mem_of_getElem? hw)
    cases drain with
    | false => cases hdone
    | true => exact hd rfl
  · have grown := filterMap_set_take Worker.task hw (y := .executing p drain) ht rfl
    rw [taken]
    have all := (h.taken.append_right [p]).trans (List.perm_append_singleton p _)
    exact all.trans ((List.perm_middle.symm).trans (grown.symm.append_left _))

/-- A step of a worker that holds no task before or after it. -/
theorem ledger_idle {w : Nat} {x y : Worker τ} (h : d.Ledger) (hw : d.workers[w]? = some x)
    (hx : ¬x.sawExit) (ht : x.task = none) (hy : y.task = none) (done : d.ch.closed)
    (exit : y.sawExit → d.ch.OnlyLate) : { d with workers := d.workers.set w y }.Ledger := by
  have same := filterMap_set_of_eq Worker.task hw (hy.trans ht.symm)
  have taken := h.taken.trans (same.symm.append_left (d.executed.map Prod.snd))
  exact ledger_worker h hw hx rfl (fun _ => done) id exit taken

/-- What a step of the queue does when it does anything. -/
inductive Dispatcher.Stepped (d : Dispatcher τ) : DispatcherAction τ → Dispatcher τ → Prop
  | idle {a : DispatcherAction τ} : Stepped d a d
  | dispatched (t : τ) : Stepped d (.dispatch t) { d with ch := d.ch.call t }
  | posted {i : Nat} {ch : Inbox τ Unit} (hc : d.ch.post i = some ch) :
    Stepped d (.send i) { d with ch }
  | handed {i w : Nat} {p : Posted τ} {ch : Inbox τ Unit}
    (hw : d.workers[w]? = some .selecting) (opened : ¬d.ch.closed)
    (hc : d.ch.hand i = some (p,ch)) :
    Stepped d (.hand i w) { d with ch, workers := d.workers.set w (.executing p false) }
  | refused {i : Nat} {ch : Inbox τ Unit} (full : d.ch.full) (hc : d.ch.refuse i () = some ch) :
    Stepped d (.drop i) { d with ch }
  | sent {i : Nat} {t : τ} (fresh : i ∉ d.returned.map Prod.fst)
    (hi : d.ch.calls[i]? = some (.accepted t)) :
    Stepped d (.finish i)
      { d with sent := d.sent + 1, shadowBufferSize := d.ch.buffer.length
               returned := d.returned ++ [(i,true)] }
  | dropped {i : Nat} {t : τ} (fresh : i ∉ d.returned.map Prod.fst)
    (hi : d.ch.calls[i]? = some (.refused t ())) :
    Stepped d (.finish i)
      { d with dropped := d.dropped + 1, returned := d.returned ++ [(i,false)] }
  | received {w : Nat} {p : Posted τ} {ch : Inbox τ Unit}
    (hw : d.workers[w]? = some .selecting) (hc : d.ch.take = some (p,ch)) :
    Stepped d (.receive w)
      { d with ch, shadowBufferSize := ch.buffer.length
               workers := d.workers.set w (.executing p false) }
  | observed {w : Nat} (hw : d.workers[w]? = some .selecting) (closed : d.ch.closed) :
    Stepped d (.observeDone w) { d with workers := d.workers.set w .draining }
  | drained {w : Nat} {p : Posted τ} {ch : Inbox τ Unit}
    (hw : d.workers[w]? = some .draining) (hc : d.ch.take = some (p,ch)) :
    Stepped d (.drainReceive w) { d with ch, workers := d.workers.set w (.executing p true) }
  | emptied {w : Nat} (hw : d.workers[w]? = some .draining) (empty : d.ch.buffer = []) :
    Stepped d (.drainEmpty w) { d with workers := d.workers.set w .exited }
  | executed {w : Nat} {p : Posted τ} {drain : Bool}
    (hw : d.workers[w]? = some (.executing p drain)) :
    Stepped d (.executed w)
      { d with workers := d.workers.set w (if drain then .draining else .selecting)
               executed := d.executed ++ [(w,p)] }
  | closed (opened : ¬d.ch.closed) : Stepped d .close { d with ch := d.ch.close }
  | waited (closed : d.ch.closed) (out : ∀ w ∈ d.workers, w.sawExit) :
    Stepped d .wait { d with shutdown := true }

theorem step_stepped (d : Dispatcher τ) (a : DispatcherAction τ) : d.Stepped a (d.step a) := by
  cases a with
  | dispatch t => exact .dispatched t
  | send i =>
    simp only [Dispatcher.step]
    split
    · next ch hc => exact .posted hc
    · exact .idle
  | hand i w =>
    simp only [Dispatcher.step]
    split
    · next hw =>
      split_ifs with closed
      · exact .idle
      · split
        · next p ch hc => exact .handed hw closed hc
        · exact .idle
    · exact .idle
  | drop i =>
    simp only [Dispatcher.step]
    split_ifs with full
    · split
      · next ch hc => exact .refused full hc
      · exact .idle
    · exact .idle
  | finish i =>
    simp only [Dispatcher.step]
    split_ifs with hf
    · exact .idle
    · split
      · next t hi => exact .sent hf hi
      · next t err hi => exact .dropped hf hi
      · exact .idle
  | receive w =>
    simp only [Dispatcher.step]
    split
    · next hw =>
      split
      · next p ch hc => exact .received hw hc
      · exact .idle
    · exact .idle
  | observeDone w =>
    simp only [Dispatcher.step]
    split
    · next hw =>
      split_ifs with hc
      · exact .observed hw hc
      · exact .idle
    · exact .idle
  | drainReceive w =>
    simp only [Dispatcher.step]
    split
    · next hw =>
      split
      · next p ch hc => exact .drained hw hc
      · exact .idle
    · exact .idle
  | drainEmpty w =>
    simp only [Dispatcher.step]
    split
    · next hw =>
      split_ifs with he
      · exact .emptied hw he
      · exact .idle
    · exact .idle
  | executed w =>
    simp only [Dispatcher.step]
    split
    · next p drain hw => exact .executed hw
    · exact .idle
  | close =>
    simp only [Dispatcher.step]
    split_ifs with hc
    · exact .idle
    · exact .closed hc
  | wait =>
    simp only [Dispatcher.step]
    split_ifs with hw
    · exact .waited hw.1 hw.2
    · exact .idle

section Stepped

variable {d' : Dispatcher τ} {a : DispatcherAction τ}

theorem Dispatcher.Stepped.ledger (stepped : d.Stepped a d') (h : d.Ledger) : d'.Ledger := by
  cases stepped with
  | idle => exact h
  | dispatched t =>
    have taken := Inbox.call_taken (b := d.ch) t
    exact ledger_caller h taken id fun _ => Inbox.call_onlyLate t
  | posted hc =>
    obtain ⟨item, settled, _, taken⟩ := Inbox.post_spec hc
    exact ledger_caller h taken (settled.closed ▸ id) fun closed => Inbox.post_onlyLate hc closed
  | handed hw _ hc =>
    obtain ⟨item, _, settled, _, _, taken⟩ := Inbox.hand_spec hc
    exact ledger_takes h hw nofun rfl nofun settled.closed (fun _ => Inbox.hand_onlyLate hc) taken
  | refused _ hc =>
    obtain ⟨item, settled, _, taken⟩ := Inbox.refuse_spec hc
    exact ledger_caller h taken (settled.closed ▸ id) fun _ => Inbox.refuse_onlyLate hc
  | sent _ _ => exact ⟨h.taken,h.done,h.left,h.shutdown⟩
  | dropped _ _ => exact ⟨h.taken,h.done,h.left,h.shutdown⟩
  | received hw hc =>
    obtain ⟨_, taken, _, closed, _⟩ := Inbox.take_spec hc
    have waits : false = true → (.selecting : Worker τ).sawDone := nofun
    have next := ledger_takes h hw nofun rfl waits closed (Inbox.take_onlyLate hc) taken
    exact ⟨next.taken,next.done,next.left,next.shutdown⟩
  | observed hw closed => exact ledger_idle h hw nofun rfl rfl closed nofun
  | drained hw hc =>
    obtain ⟨_, taken, _, closed, _⟩ := Inbox.take_spec hc
    exact ledger_takes h hw nofun rfl (fun _ => rfl) closed (Inbox.take_onlyLate hc) taken
  | emptied hw empty =>
    exact ledger_idle h hw nofun rfl rfl (h.done _ (List.mem_of_getElem? hw) rfl)
      fun _ => Inbox.onlyLate_of_empty empty
  | @executed w p drain hw =>
    have free : (if drain then Worker.draining else .selecting : Worker τ).task = none := by
      cases drain <;> rfl
    have shrunk := filterMap_set_drop Worker.task hw rfl free
    refine ledger_worker h hw nofun rfl ?_ id ?_ ?_
    · intro hd
      apply h.done _ (List.mem_of_getElem? hw)
      cases drain with
      | false => cases hd
      | true => rfl
    · intro he
      cases drain <;> cases he
    · rw [List.map_append, List.append_assoc]
      exact h.taken.trans (shrunk.symm.append_left _)
  | closed _ =>
    have taken := Inbox.close_taken (b := d.ch)
    exact ledger_caller h taken (fun _ => rfl) fun _ => Inbox.close_onlyLate
  | waited _ out => exact ⟨h.taken,h.done,h.left,fun _ => out⟩

/-- Nothing adds a worker, and none is taken away. -/
theorem Dispatcher.Stepped.workers (stepped : d.Stepped a d') :
    d'.workers.length = d.workers.length := by
  cases stepped with
  | handed _ _ _ => exact List.length_set
  | received _ _ => exact List.length_set
  | observed _ _ => exact List.length_set
  | drained _ _ => exact List.length_set
  | emptied _ _ => exact List.length_set
  | executed _ => exact List.length_set
  | _ => rfl

end Stepped

theorem counted_new (bufferSize workers : Nat) :
    (NewDispatcher bufferSize workers : Dispatcher τ).Counted :=
  ⟨List.nodup_nil,nofun,nofun,rfl,rfl⟩

/-- A step that keeps what the calls returned, and returns nothing itself. -/
theorem counted_of_keeps {d' : Dispatcher τ} (h : d.Counted) (same : d'.returned = d.returned)
    (sent : d'.sent = d.sent) (dropped : d'.dropped = d.dropped)
    (keep : ∀ (i : Nat) (c : Call τ Unit), d.ch.calls[i]? = some c → (∀ x, c ≠ .pending x) →
      d'.ch.calls[i]? = some c) : d'.Counted := by
  refine ⟨same ▸ h.once,fun i hi => ?_,fun i hi => ?_,?_,?_⟩
  · obtain ⟨t, ht⟩ := h.accepted i (same ▸ hi)
    exact ⟨t,keep i _ ht nofun⟩
  · obtain ⟨t, ht⟩ := h.refused i (same ▸ hi)
    exact ⟨t,keep i _ ht nofun⟩
  · rw [sent, same, h.sent]
  · rw [dropped, same, h.dropped]

/-- A call that returns is counted by its result. -/
theorem counted_finish {i : Nat} {b : Bool} {size : Nat} (h : d.Counted)
    (fresh : i ∉ d.returned.map Prod.fst)
    (result : if b then ∃ t, d.ch.calls[i]? = some (.accepted t)
      else ∃ t, d.ch.calls[i]? = some (.refused t ())) :
    { d with sent := d.sent + b.toNat, dropped := d.dropped + (!b).toNat, shadowBufferSize := size
             returned := d.returned ++ [(i,b)] }.Counted := by
  refine ⟨?_,fun j hj => ?_,fun j hj => ?_,?_,?_⟩
  · change ((d.returned ++ [(i,b)]).map Prod.fst).Nodup
    rw [List.map_append, List.map_singleton]
    exact List.nodup_append_comm.mp (List.nodup_cons.mpr ⟨fresh,h.once⟩)
  · obtain old | new := List.mem_append.mp hj
    · exact h.accepted j old
    · cases List.mem_singleton.mp new
      exact result
  · obtain old | new := List.mem_append.mp hj
    · exact h.refused j old
    · cases List.mem_singleton.mp new
      exact result
  · change d.sent + _ = (d.returned ++ [(i,b)]).countP _
    rw [List.countP_append, h.sent]
    cases b <;> rfl
  · change d.dropped + _ = (d.returned ++ [(i,b)]).countP _
    rw [List.countP_append, h.dropped]
    cases b <;> rfl

theorem Dispatcher.Stepped.counted {d' : Dispatcher τ} {a : DispatcherAction τ}
    (stepped : d.Stepped a d') (h : d.Counted) : d'.Counted := by
  cases stepped with
  | idle => exact h
  | dispatched t => exact counted_of_keeps h rfl rfl rfl fun i c hi _ => Inbox.call_keeps t hi
  | posted hc =>
    obtain ⟨item, settled, _⟩ := Inbox.post_spec hc
    exact counted_of_keeps h rfl rfl rfl fun j c => settled.keeps
  | handed _ _ hc =>
    obtain ⟨item, _, settled, _⟩ := Inbox.hand_spec hc
    exact counted_of_keeps h rfl rfl rfl fun j c => settled.keeps
  | refused _ hc =>
    obtain ⟨item, settled, _⟩ := Inbox.refuse_spec hc
    exact counted_of_keeps h rfl rfl rfl fun j c => settled.keeps
  | @sent i t fresh hi => exact counted_finish (b := true) h fresh ⟨t,hi⟩
  | @dropped i t fresh hi => exact counted_finish (b := false) h fresh ⟨t,hi⟩
  | received _ hc =>
    have calls := (Inbox.take_spec hc).2.2.1
    exact counted_of_keeps h rfl rfl rfl fun j c hj _ => by rw [calls, hj]
  | drained _ hc =>
    have calls := (Inbox.take_spec hc).2.2.1
    exact counted_of_keeps h rfl rfl rfl fun j c hj _ => by rw [calls, hj]
  | _ => exact counted_of_keeps h rfl rfl rfl fun j c hj _ => hj

/-- No worker runs a task twice, no two run the same one, and none runs a refused one. -/
structure Executed (d : Dispatcher τ) : Prop where
  once : (d.executed.map (·.2.caller)).Nodup
  accepted : ∀ x ∈ d.executed, x.2 ∈ d.ch.accepted
  refused : ∀ i, (i,false) ∈ d.returned → ∀ x ∈ d.executed, x.2.caller ≠ i
  sent : d.sent = d.returned.countP (·.2)
  dropped : d.dropped = d.returned.countP (!·.2)

/-- Every task whose `Dispatch` returned true has been executed, `left` apart. -/
structure Drained (d : Dispatcher τ) (left : List (Posted τ)) : Prop where
  finished : ∀ w ∈ d.workers, w.task = none
  all : d.ch.accepted.Perm (d.executed.map Prod.snd ++ left)
  returned : ∀ i, (i,true) ∈ d.returned → ∃ p ∈ d.ch.accepted, p.caller = i

theorem executed_of_ledger (h : d.Ledger) (counted : d.Counted) : Executed d := by
  have taken (x : Nat × Posted τ) (hx : x ∈ d.executed) : x.2 ∈ d.ch.accepted := by
    rw [d.ch.ledger]
    apply List.mem_append_left
    exact h.taken.mem_iff.mpr (List.mem_append_left _ (List.mem_map_of_mem hx))
  refine ⟨?_,taken,fun i hi x hx hc => ?_,counted.sent,counted.dropped⟩
  · have once := d.ch.matched.once
    rw [d.ch.ledger, List.map_append] at once
    have part := ((h.taken.map (·.caller)).nodup_iff.mp once.of_append_left)
    rw [List.map_append, List.map_map] at part
    exact part.of_append_left
  · obtain ⟨t, ht⟩ := counted.refused i hi
    have found := (d.ch.matched.iff x.2.caller x.2.item).mpr (taken x hx)
    rw [hc, ht] at found
    cases found

theorem drained_of_ledger (h : d.Ledger) (counted : d.Counted) (hs : d.shutdown) :
    Drained d d.ch.buffer := by
  have idle (w : Worker τ) (hw : w ∈ d.workers) : w.task = none := by
    have out := h.shutdown hs w hw
    cases w with
    | exited => rfl
    | _ => cases out
  refine ⟨idle,?_,fun i hi => ?_⟩
  · have empty : d.workers.filterMap Worker.task = [] := List.filterMap_eq_nil_iff.mpr idle
    have taken := h.taken
    rw [empty, List.append_nil] at taken
    rw [d.ch.ledger]
    exact taken.append_right _
  · obtain ⟨t, ht⟩ := counted.accepted i hi
    exact ⟨⟨i,t⟩,(d.ch.matched.iff i t).mp ht,rfl⟩

/-- In every schedule of a pool with a worker, a task is executed at most once and never when
it was refused, the counters are right, and at the end of `Shutdown` every accepted task has
been executed, or was sent by a call that had not returned when `Shutdown` began. -/
theorem shutdown_drained (bufferSize workers : Nat) (some : 0 < workers)
    (as : List (DispatcherAction τ)) :
    Always Dispatcher.step (fun d => Executed d ∧
      (d.shutdown → Drained d d.ch.buffer ∧ ∀ p ∈ d.ch.buffer, p.caller ∈ d.ch.late))
      (NewDispatcher bufferSize workers) as := by
  have first : 0 < (NewDispatcher bufferSize workers : Dispatcher τ).workers.length := by
    simpa [NewDispatcher] using some
  have always := always_of_step Dispatcher.step
    (P := fun d => d.Ledger ∧ d.Counted ∧ 0 < d.workers.length)
    (fun d a h => ⟨(step_stepped d a).ledger h.1,(step_stepped d a).counted h.2.1,
      (step_stepped d a).workers ▸ h.2.2⟩)
    ⟨ledger_new bufferSize workers,counted_new bufferSize workers,first⟩ as
  refine always_imp Dispatcher.step ?_ always
  intro d h
  obtain ⟨ledger, counted, pool⟩ := h
  refine ⟨executed_of_ledger ledger counted,fun hs => ⟨drained_of_ledger ledger counted hs,?_⟩⟩
  have first := List.getElem_mem pool
  exact ledger.left ⟨_,first,ledger.shutdown hs _ first⟩

/-- `Dispatch` never waits: the caller's own steps bring it back, whatever the workers do. -/
theorem dispatch_returns (d : Dispatcher τ) (i : Nat) {t : τ}
    (h : d.ch.calls[i]? = some (.pending t)) :
    i ∈ (run Dispatcher.step d [.send i,.drop i,.finish i]).returned.map Prod.fst := by
  have finished (e : Dispatcher τ) (c : Call τ Unit) (hc : e.ch.calls[i]? = some c)
      (returned : ∀ x, c ≠ .pending x) : i ∈ (e.step (.finish i)).returned.map Prod.fst := by
    simp only [Dispatcher.step]
    split_ifs with hf
    · exact hf
    · cases c with
      | pending x => exact absurd rfl (returned x)
      | accepted x => simp [hc]
      | refused x err => simp [hc]
  simp only [run_cons, run_nil]
  have bound := (List.getElem?_eq_some_iff.mp h).1
  cases hp : d.ch.post i with
  | some ch =>
    have sent : d.step (.send i) = { d with ch } := by simp [Dispatcher.step, hp]
    obtain ⟨item, settled, _⟩ := Inbox.post_spec hp
    have accepted : ch.calls[i]? = some (.accepted item) := by
      rw [settled.calls, List.getElem?_set_self bound]
    have kept : (({ d with ch } : Dispatcher τ).step (.drop i)) = { d with ch } := by
      have none : ch.refuse i () = none := Inbox.refuse_eq_none (by simp [accepted])
      simp [Dispatcher.step, none]
    rw [sent, kept]
    exact finished _ _ accepted nofun
  | none =>
    have full : d.ch.full = true := Inbox.post_eq_none h hp
    have sent : d.step (.send i) = d := by simp [Dispatcher.step, hp]
    cases hr : d.ch.refuse i () with
    | none => exact absurd hr (Inbox.refuse_ne_none h)
    | some ch =>
      obtain ⟨item, settled, _⟩ := Inbox.refuse_spec hr
      have refused : ch.calls[i]? = some (.refused item ()) := by
        rw [settled.calls, List.getElem?_set_self bound]
      have dropped : d.step (.drop i) = { d with ch } := by simp [Dispatcher.step, full, hr]
      rw [sent, dropped]
      exact finished _ _ refused nofun

/-- No call of `Dispatch` begins once `Shutdown` has begun. -/
def NoLateDispatch (d : Dispatcher τ) : DispatcherAction τ → Prop
  | .dispatch _ => d.ch.closed = false
  | _ => True

/-- One worker, one task, executed and drained. -/
theorem shutdown_drained_small :
    Always Dispatcher.step (fun d => Executed d ∧
      (d.shutdown → Drained d d.ch.buffer ∧ ∀ p ∈ d.ch.buffer, p.caller ∈ d.ch.late))
      (NewDispatcher 1 1 : Dispatcher Nat)
      [.dispatch 7,.send 0,.finish 0,.close,.receive 0,.executed 0,.observeDone 0,.drainEmpty 0,
        .wait] :=
  shutdown_drained 1 1 (by decide) _

/-- A call begun before `Shutdown` sends after the worker has left. -/
theorem lateDispatch_not_executed :
    Throughout Dispatcher.step NoLateDispatch (NewDispatcher 1 1 : Dispatcher Nat)
      [.dispatch 7,.close,.observeDone 0,.drainEmpty 0,.send 0,.finish 0,.wait] ∧
    ¬Always Dispatcher.step (fun d => d.shutdown → Drained d []) (NewDispatcher 1 1 : Dispatcher Nat)
      [.dispatch 7,.close,.observeDone 0,.drainEmpty 0,.send 0,.finish 0,.wait] := by
  refine ⟨⟨rfl,trivial,trivial,trivial,trivial,trivial,trivial,trivial⟩,fun h => ?_⟩
  have lost := (always_last _ h rfl).all.length_eq
  revert lost
  decide

end FraudPlatform.Router
