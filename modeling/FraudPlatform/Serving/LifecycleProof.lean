import FraudPlatform.Serving.Lifecycle

namespace FraudPlatform.Serving.Lifecycle

open Framework

/-- The session a reload would have to destroy if nobody else did. -/
def Reload.owned : Reload → Option Nat
  | .validating newR | .sampling newR | .ready newR | .locked newR => some newR.session
  | .swapped old _ | .unlocked old _ => old.map (·.session)
  | .loading | .returned _ | .panicked => none

/-- The runner a reload may still install. -/
def Reload.candidate : Reload → Option Runner
  | .validating newR | .sampling newR | .ready newR | .locked newR => some newR
  | _ => none

def Reload.finished : Reload → Bool
  | .returned _ | .panicked => true
  | _ => false

/-- A reader works on the runner that is installed. -/
def Score.Uses (r : Option Runner) : Score → Prop
  | .holding r' => r = some r'
  | .running featureOrder session =>
    ∃ r', r = some r' ∧ r'.featureOrder = featureOrder ∧ r'.session = session
  | _ => True

/-- The inference took its feature order and its session from one runner. -/
def Score.OneRunner (runners : List Runner) : Score → Prop
  | .running featureOrder session | .ran featureOrder session =>
    ∃ r ∈ runners, r.featureOrder = featureOrder ∧ r.session = session
  | _ => True

def Process.held (s : Process) : List Nat :=
  (s.r.map (·.session)).toList ++ s.reloads.filterMap Reload.owned ++ s.destroyed

/-- Every session has one owner, or is destroyed once; readers and writers exclude each other. -/
structure Owned (s : Process) : Prop where
  numbered : s.runners.map (·.session) = List.range s.runners.length
  installed : ∀ r ∈ s.r, r ∈ s.runners
  candidates : ∀ q ∈ s.reloads, ∀ r ∈ q.candidate, r ∈ s.runners
  held : s.held.Perm (List.range s.runners.length)
  exclusive : s.readLocked → s.writeLocked = false
  uses : ∀ q ∈ s.scores, q.Uses s.r
  oneRunner : ∀ q ∈ s.scores, q.OneRunner s.runners

/-- What the claim on lifetimes comes to in one state. -/
structure Safe (s : Process) : Prop where
  scoreAlive : ∀ q ∈ s.scores, ∀ featureOrder session, q = .running featureOrder session →
    session < s.runners.length ∧ session ∉ s.destroyed
  validateAlive : ∀ q ∈ s.reloads, ∀ newR, q = .validating newR →
    newR.session < s.runners.length ∧ newR.session ∉ s.destroyed
  oneRunner : ∀ q ∈ s.scores, q.OneRunner s.runners
  once : s.destroyed.Nodup
  quiescent : (∀ q ∈ s.reloads, q.finished) → ∀ session, session < s.runners.length →
    (session ∉ s.destroyed ↔ ∃ r ∈ s.r, r.session = session)

theorem owned_new (featureOrder : List String) (modelVersion : String) :
    Owned (NewSwappable featureOrder modelVersion) :=
  ⟨rfl,by simp [NewSwappable],nofun,List.Perm.refl _,nofun,nofun,nofun⟩

theorem any_set {α : Type} (p : α → Bool) {l : List α} {i : Nat} {y : α}
    (h : (l.set i y).any p) : l.any p ∨ p y := by
  obtain ⟨x, hx, hp⟩ := List.any_eq_true.mp h
  obtain old | rfl := List.mem_or_eq_of_mem_set hx
  · exact Or.inl (List.any_eq_true.mpr ⟨x,old,hp⟩)
  · exact Or.inr hp

theorem any_append_of_not {α : Type} (p : α → Bool) {l : List α} {y : α} (h : p y = false) :
    (l ++ [y]).any p = l.any p := by
  rw [List.any_append, List.any_cons, h, List.any_nil, Bool.or_false, Bool.or_false]

variable {s : Process}

/-- A step of one `Score` call: it takes the read lock only when no writer has it. -/
theorem owned_setScore (h : Owned s) {i : Nat} {q q' : Score} (hi : s.scores[i]? = some q)
    (lock : q'.holdsReadLock → q.holdsReadLock ∨ s.writeLocked = false) (uses : q'.Uses s.r)
    (oneRunner : q'.OneRunner s.runners) : Owned (s.setScore i q') := by
  refine ⟨h.numbered,h.installed,h.candidates,h.held,?_,forall_mem_set h.uses uses,
    forall_mem_set h.oneRunner oneRunner⟩
  intro hr
  obtain hs | hv := (Bool.or_eq_true _ _).mp hr
  · obtain old | new := any_set _ hs
    · exact h.exclusive ((Bool.or_eq_true _ _).mpr (Or.inl old))
    · obtain had | free := lock new
      · apply h.exclusive
        exact (Bool.or_eq_true _ _).mpr
          (Or.inl (List.any_eq_true.mpr ⟨q,List.mem_of_getElem? hi,had⟩))
      · exact free
  · exact h.exclusive ((Bool.or_eq_true _ _).mpr (Or.inr hv))

theorem owned_setVersion (h : Owned s) {k : Nat} {v' : ModelVersion}
    (lock : v'.holdsReadLock → s.writeLocked = false) :
    Owned { s with versions := s.versions.set k v' } := by
  refine ⟨h.numbered,h.installed,h.candidates,h.held,?_,h.uses,h.oneRunner⟩
  intro hr
  obtain hs | hv := (Bool.or_eq_true _ _).mp hr
  · exact h.exclusive ((Bool.or_eq_true _ _).mpr (Or.inl hs))
  · obtain old | new := any_set _ hv
    · exact h.exclusive ((Bool.or_eq_true _ _).mpr (Or.inr old))
    · exact lock new

/-- A step of one reload outside the swap: what it owned before, it owns, has destroyed or
has given up to nobody. -/
theorem owned_setReload (h : Owned s) {j : Nat} {q q' : Reload} {destroyed : List Nat}
    (hj : s.reloads[j]? = some q)
    (lock : q'.holdsLock → q.holdsLock ∨ s.readLocked = false)
    (candidate : ∀ r ∈ q'.candidate, r ∈ q.candidate)
    (owned : ∀ x, q.owned.toList.count x + s.destroyed.count x =
      q'.owned.toList.count x + destroyed.count x) :
    Owned ({ s with destroyed }.setReload j q') := by
  refine ⟨h.numbered,h.installed,?_,?_,?_,h.uses,h.oneRunner⟩
  · refine forall_mem_set h.candidates fun r hr => ?_
    exact h.candidates q (List.mem_of_getElem? hj) r (candidate r hr)
  · refine List.Perm.trans ?_ h.held
    rw [List.perm_iff_count]
    intro x
    have swap := (filterMap_set_perm Reload.owned hj q').count_eq x
    have same := owned x
    rw [List.count_append, List.count_append] at swap
    simp only [Process.held, Process.setReload, List.count_append]
    omega
  · intro hr
    rw [Bool.eq_false_iff]
    intro hw
    have none := h.exclusive hr
    obtain old | new := any_set _ hw
    · exact Bool.eq_false_iff.mp none old
    · obtain had | free := lock new
      · exact Bool.eq_false_iff.mp none
          (List.any_eq_true.mpr ⟨q,List.mem_of_getElem? hj,had⟩)
      · exact Bool.eq_false_iff.mp free hr

/-- A check of a new runner passes it on or destroys it. -/
theorem owned_checked (h : Owned s) {j : Nat} {q : Reload} {newR : Runner}
    (hj : s.reloads[j]? = some q) (q' : Reload) (owned : q.owned = some newR.session)
    (next : q'.owned = q.owned) (candidate : q'.candidate = q.candidate)
    (lock : q'.holdsLock = false) (ok : Bool) :
    Owned (if ok then s.setReload j q'
      else (s.destroyRunner newR).setReload j (.returned none)) := by
  split_ifs
  · refine owned_setReload h hj ?_ ?_ ?_
    · intro locked
      rw [lock] at locked
      cases locked
    · intro r hr
      rwa [candidate] at hr
    · intro x
      rw [next]
  · refine owned_setReload h hj nofun nofun ?_
    intro x
    rw [owned]
    simp [Reload.owned, List.count_append, Nat.add_comm]

/-- The runner may change while no reader holds the lock. -/
theorem uses_of_unlocked (h : s.readLocked = false) (r : Option Runner) {q : Score}
    (hq : q ∈ s.scores) : q.Uses r := by
  have free : q.holdsReadLock = false := by
    rw [Bool.eq_false_iff]
    intro hl
    apply Bool.eq_false_iff.mp h
    exact (Bool.or_eq_true _ _).mpr (Or.inl (List.any_eq_true.mpr ⟨q,hq,hl⟩))
  cases q with
  | holding r' => cases free
  | running featureOrder session => cases free
  | _ => trivial

theorem owned_reload (h : Owned s) : Owned (s.step .reload) := by
  refine ⟨h.numbered,h.installed,forall_mem_concat h.candidates nofun,?_,?_,h.uses,h.oneRunner⟩
  · have same : (s.reloads ++ [Reload.loading]).filterMap Reload.owned =
        s.reloads.filterMap Reload.owned := by
      rw [List.filterMap_append]
      exact List.append_nil _
    have held := h.held
    rw [Process.held, ← same] at held
    exact held
  · exact fun hr => (any_append_of_not Reload.holdsLock rfl).trans (h.exclusive hr)

theorem owned_newSession (h : Owned s) {j : Nat} (hj : s.reloads[j]? = some .loading)
    (featureOrder : List String) (modelVersion : String) :
    Owned (s.step (.newSession j featureOrder modelVersion)) := by
  simp only [Process.step, hj]
  refine ⟨?_,?_,?_,?_,?_,h.uses,?_⟩
  · change (s.runners ++ [_]).map _ = _
    rw [List.map_append, h.numbered]
    simp [Process.setReload, List.range_succ]
  · exact fun r hr => List.mem_append_left _ (h.installed r hr)
  · refine forall_mem_set (fun q hq r hr => List.mem_append_left _ (h.candidates q hq r hr)) ?_
    rintro r ⟨⟩
    exact List.mem_append_right _ (List.mem_singleton.mpr rfl)
  · have taken := filterMap_set_take Reload.owned hj rfl
      (y := .validating ⟨s.runners.length,featureOrder,modelVersion⟩) rfl
    have all := (taken.append_left (s.r.map (·.session)).toList).append_right s.destroyed
    simp only [Process.held, Process.setReload, List.length_append, List.length_singleton,
      List.range_succ]
    refine all.trans (List.Perm.trans ?_ (List.perm_append_singleton s.runners.length _).symm)
    rw [List.append_assoc, List.cons_append]
    refine List.perm_middle.trans (List.Perm.cons _ ?_)
    rw [← List.append_assoc]
    exact h.held
  · intro hr
    rw [Bool.eq_false_iff]
    intro hw
    obtain old | new := any_set _ hw
    · exact Bool.eq_false_iff.mp (h.exclusive hr) old
    · cases new
  · intro q hq
    have old := h.oneRunner q hq
    cases q with
    | running fo session =>
      obtain ⟨r, hr, same⟩ := old
      exact ⟨r,List.mem_append_left _ hr,same⟩
    | ran fo session =>
      obtain ⟨r, hr, same⟩ := old
      exact ⟨r,List.mem_append_left _ hr,same⟩
    | _ => trivial

/-- The swap gives the new session to the installed runner and the old one to the reload. -/
theorem owned_swap (h : Owned s) {j : Nat} {newR : Runner}
    (hj : s.reloads[j]? = some (.locked newR)) : Owned (s.step (.swap j)) := by
  have writing : s.writeLocked = true :=
    List.any_eq_true.mpr ⟨.locked newR,List.mem_of_getElem? hj,rfl⟩
  have idle : s.readLocked = false := by
    rw [Bool.eq_false_iff]
    intro hr
    rw [h.exclusive hr] at writing
    cases writing
  simp only [Process.step, hj]
  refine ⟨h.numbered,?_,?_,?_,?_,fun q hq => uses_of_unlocked idle _ hq,h.oneRunner⟩
  · rintro r ⟨⟩
    exact h.candidates _ (List.mem_of_getElem? hj) newR rfl
  · exact forall_mem_set h.candidates nofun
  · have swap := filterMap_set_perm Reload.owned hj (.swapped s.r newR)
    exact (swap.append_right s.destroyed).trans h.held
  · intro hr
    change s.readLocked = true at hr
    rw [idle] at hr
    cases hr

theorem owned_destroy (h : Owned s) : Owned (s.step .destroy) := by
  simp only [Process.step]
  split_ifs with hl
  · exact h
  · split
    · next r hr =>
      obtain ⟨idle, _⟩ := Bool.or_eq_false_iff.mp (Bool.eq_false_iff.mpr hl)
      refine ⟨h.numbered,nofun,h.candidates,?_,h.exclusive,fun q hq => uses_of_unlocked idle _ hq,
        h.oneRunner⟩
      have held := h.held
      rw [Process.held, hr] at held
      refine List.Perm.trans ?_ held
      change (s.reloads.filterMap Reload.owned ++ (s.destroyed ++ [r.session])).Perm
        ([r.session] ++ s.reloads.filterMap Reload.owned ++ s.destroyed)
      rw [← List.append_assoc, List.append_assoc [r.session]]
      exact List.perm_append_comm
    · exact h

theorem step_owned (h : Owned s) (a : Action) : Owned (s.step a) := by
  cases a with
  | score =>
    refine ⟨h.numbered,h.installed,h.candidates,h.held,?_,forall_mem_concat h.uses trivial,
      forall_mem_concat h.oneRunner trivial⟩
    intro hr
    apply h.exclusive
    rw [Process.readLocked, ← any_append_of_not Score.holdsReadLock (y := .entered) rfl]
    exact hr
  | scoreLock i =>
    simp only [Process.step]
    split
    · next hi =>
      split_ifs with hw
      · exact h
      · exact owned_setScore h hi (fun _ => Or.inr (Bool.eq_false_iff.mpr hw)) trivial trivial
    · exact h
  | scoreEnter i =>
    simp only [Process.step]
    split
    · next hi =>
      split
      · next r hr => exact owned_setScore h hi (fun _ => Or.inl rfl) hr trivial
      · exact owned_setScore h hi nofun trivial trivial
    · exact h
  | scoreFailed i =>
    simp only [Process.step]
    split
    · next r hi => exact owned_setScore h hi nofun trivial trivial
    · exact h
  | scoreRun i =>
    simp only [Process.step]
    split
    · next r hi =>
      have installed : s.r = some r := h.uses _ (List.mem_of_getElem? hi)
      exact owned_setScore h hi (fun _ => Or.inl rfl) ⟨r,installed,rfl,rfl⟩
        ⟨r,h.installed r installed,rfl,rfl⟩
    · exact h
  | scoreRan i =>
    simp only [Process.step]
    split
    · next featureOrder session hi =>
      have oneRunner := h.oneRunner _ (List.mem_of_getElem? hi)
      exact owned_setScore h hi nofun trivial oneRunner
    · exact h
  | modelVersion =>
    refine ⟨h.numbered,h.installed,h.candidates,h.held,?_,h.uses,h.oneRunner⟩
    intro hr
    apply h.exclusive
    rw [Process.readLocked, ← any_append_of_not ModelVersion.holdsReadLock (y := .entered) rfl]
    exact hr
  | versionLock k =>
    simp only [Process.step]
    split
    · split_ifs with hw
      · exact h
      · exact owned_setVersion h fun _ => Bool.eq_false_iff.mpr hw
    · exact h
  | versionRead k =>
    simp only [Process.step]
    split
    · split
      · exact owned_setVersion h nofun
      · exact owned_setVersion h nofun
    · exact h
  | reload => exact owned_reload h
  | loadFailed j =>
    simp only [Process.step]
    split
    · next hj => exact owned_setReload h hj nofun nofun fun _ => rfl
    · exact h
  | newSession j featureOrder modelVersion =>
    cases hj : s.reloads[j]? with
    | none => simpa [Process.step, hj] using h
    | some q =>
      cases q with
      | loading => exact owned_newSession h hj featureOrder modelVersion
      | _ => simpa [Process.step, hj] using h
  | validated j ok =>
    simp only [Process.step]
    split
    · next newR hj => exact owned_checked h hj (.sampling newR) rfl rfl rfl rfl ok
    · exact h
  | sampled j ok =>
    simp only [Process.step]
    split
    · next newR hj => exact owned_checked h hj (.ready newR) rfl rfl rfl rfl ok
    · exact h
  | lock j =>
    simp only [Process.step]
    split
    · next newR hj =>
      split_ifs with hl
      · exact h
      · obtain ⟨idle, _⟩ := Bool.or_eq_false_iff.mp (Bool.eq_false_iff.mpr hl)
        exact owned_setReload h hj (fun _ => Or.inr idle) (fun _ hr => hr) fun _ => rfl
    · exact h
  | swap j =>
    cases hj : s.reloads[j]? with
    | none => simpa [Process.step, hj] using h
    | some q =>
      cases q with
      | locked newR => exact owned_swap h hj
      | _ => simpa [Process.step, hj] using h
  | unlock j =>
    simp only [Process.step]
    split
    · next old newR hj => exact owned_setReload h hj nofun nofun fun _ => rfl
    · exact h
  | destroyOld j =>
    simp only [Process.step]
    split
    · next old newR hj =>
      refine owned_setReload h hj nofun nofun fun x => ?_
      simp [Reload.owned, List.count_append, Nat.add_comm]
    · next newR hj => exact owned_setReload h hj nofun nofun fun _ => rfl
    · exact h
  | destroy => exact owned_destroy h

theorem held_alive (h : Owned s) {x : Nat}
    (hx : x ∈ (s.r.map (·.session)).toList ++ s.reloads.filterMap Reload.owned) :
    x < s.runners.length ∧ x ∉ s.destroyed := by
  have nodup := h.held.nodup_iff.mpr List.nodup_range
  rw [Process.held, List.nodup_append] at nodup
  refine ⟨?_,fun hd => nodup.2.2 x hx x hd rfl⟩
  exact List.mem_range.mp (h.held.mem_iff.mp (List.mem_append_left _ hx))

theorem owned_finished {q : Reload} (h : q.finished) : q.owned = none := by
  cases q with
  | returned v => rfl
  | panicked => rfl
  | _ => cases h

theorem safe_of_owned (h : Owned s) : Safe s := by
  refine ⟨?_,?_,h.oneRunner,?_,?_⟩
  · rintro q hq featureOrder session rfl
    obtain ⟨r, installed, _, rfl⟩ := h.uses _ hq
    exact held_alive h (List.mem_append_left _ (by simp [installed]))
  · rintro q hq newR rfl
    exact held_alive h (List.mem_append_right _ (List.mem_filterMap.mpr ⟨_,hq,rfl⟩))
  · have nodup := h.held.nodup_iff.mpr List.nodup_range
    exact (List.nodup_append.mp nodup).2.1
  · intro finished session known
    have none : s.reloads.filterMap Reload.owned = [] :=
      List.filterMap_eq_nil_iff.mpr fun q hq => owned_finished (finished q hq)
    have somewhere := h.held.mem_iff.mpr (List.mem_range.mpr known)
    rw [Process.held, none, List.append_nil, List.mem_append] at somewhere
    constructor
    · intro alive
      obtain installed | gone := somewhere
      · simpa using installed
      · exact absurd gone alive
    · rintro ⟨r, hr, rfl⟩
      exact (held_alive h (List.mem_append_left _ (by simp [Option.mem_def.mp hr]))).2

/-- In every interleaving of scores, version reads, reloads and destruction. -/
theorem lifecycle_safe (featureOrder : List String) (modelVersion : String) (as : List Action) :
    Always Process.step Safe (NewSwappable featureOrder modelVersion) as := by
  have always := always_of_step Process.step (P := Owned) (fun s a h => step_owned h a)
    (owned_new featureOrder modelVersion) as
  exact always_imp Process.step (fun s owned => safe_of_owned owned) always

/-- A reload with the process to itself installs what `Swappable.reload` installs, and the
session it replaces is gone. -/
theorem reload_alone {V : Type} (E : Engine V) (env : LoadEnv) (modelPath featureOrderPath : String)
    (sampler : Bool) {old newR : Runner} (installed : s.r = some old)
    (idle : s.readLocked = false) (free : s.writeLocked = false)
    (loaded : Swappable.candidate E env modelPath featureOrderPath ⟨old,sampler⟩ = .ok newR)
    (session : newR.session = s.runners.length) :
    let j := s.reloads.length
    let s' := run Process.step s [.reload,.newSession j newR.featureOrder newR.modelVersion,
      .validated j true,.sampled j true,.lock j,.swap j,.unlock j,.destroyOld j]
    s'.r = some (Swappable.reload E env modelPath featureOrderPath ⟨old,sampler⟩).1.r ∧
      s'.destroyed = s.destroyed ++ [old.session] := by
  have same : (⟨s.runners.length,newR.featureOrder,newR.modelVersion⟩ : Runner) = newR := by
    rw [← session]
  have waiting : (Reload.ready newR).holdsLock = false := rfl
  have free' : (s.reloads.any (·.holdsLock)) = false := free
  simp only [Process.readLocked, Bool.or_eq_false_iff] at idle
  rw [Swappable.reload, loaded]
  simp [Process.step, Process.setReload, Process.destroyRunner, Process.readLocked,
    Process.writeLocked, idle.1, idle.2, free', waiting, same, installed]

end FraudPlatform.Serving.Lifecycle
