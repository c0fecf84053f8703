import Mathlib.Data.List.Forall2

namespace Framework

/-- An operation from named values to named values. -/
structure Node (ω : Type*) where
  op : ω
  input : List String
  output : List String
  deriving DecidableEq, Repr

namespace Dataflow

variable {ω V : Type*}

abbrev Env (V : Type*) := String → Option V

/-- What an operation makes of its inputs, if it takes them. -/
abbrev Semantics (ω V : Type*) := ω → List V → Option (List V)

def assign (env : Env V) (names : List String) (values : List V) : Env V :=
  fun x => ((names.zip values).lookup x).or (env x)

/-- The nodes one after another; a name that nothing has produced fails. -/
def eval (sem : Semantics ω V) (env : Env V) : List (Node ω) → Option (Env V)
  | [] => some env
  | n :: ns => do
    let results ← sem n.op (← n.input.mapM env)
    eval sem (assign env n.output results) ns

/-- Every name is produced once, and none of `given` at all. -/
def SSA (given : Env V) (ns : List (Node ω)) : Prop :=
  (ns.flatMap (·.output)).Nodup ∧ ∀ x ∈ ns.flatMap (·.output), given x = none

variable {sem : Semantics ω V} {env env' final : Env V} {n : Node ω} {ns : List (Node ω)}

theorem assign_of_notMem {names : List String} {values : List V} {x : String} (h : x ∉ names) :
    assign env names values x = env x := by
  have missing : (names.zip values).lookup x = none := by
    rw [List.lookup_eq_none_iff]
    intro p hp
    have mine : p.1 ∈ names := (List.of_mem_zip hp).1
    have ne : x ≠ p.1 := fun same => h (same ▸ mine)
    exact bne_iff_ne.mpr ne
  rw [assign, missing, Option.none_or]

theorem assign_first {names : List String} {name : String} (h : names[0]? = some name) (v : V) :
    assign env names [v] name = some v := by
  cases names with
  | nil => cases h
  | cons first others =>
    obtain rfl : first = name := Option.some.inj h
    simp [assign]

theorem mapM_cons_eq_some {x : String} {names : List String} {args : List V} :
    (x :: names).mapM env = some args ↔
      ∃ v vs, env x = some v ∧ names.mapM env = some vs ∧ v :: vs = args := by
  rw [List.mapM_cons, Option.bind_eq_bind, Option.bind_eq_some_iff]
  constructor
  · intro h
    obtain ⟨v, hv, rest⟩ := h
    obtain ⟨vs, hvs, rest⟩ := Option.bind_eq_some_iff.mp rest
    exact ⟨v,vs,hv,hvs,Option.some.inj rest⟩
  · intro h
    obtain ⟨v, vs, hv, hvs, rfl⟩ := h
    exact ⟨v,hv,by rw [hvs]; rfl⟩

theorem mapM_getElem {names : List String} {args : List V} (h : names.mapM env = some args)
    {i : Nat} {x : String} (hx : names[i]? = some x) : ∃ v, args[i]? = some v ∧ env x = some v := by
  induction names generalizing args i with
  | nil => simp at hx
  | cons name names ih =>
    obtain ⟨v, vs, hv, hvs, rfl⟩ := mapM_cons_eq_some.mp h
    cases i with
    | zero =>
      obtain rfl : name = x := Option.some.inj hx
      exact ⟨v,rfl,hv⟩
    | succ i => exact ih hvs hx

theorem mapM_congr {names : List String} (h : ∀ x ∈ names, env x = env' x) :
    names.mapM env = names.mapM env' := by
  induction names with
  | nil => rfl
  | cons name names ih =>
    rw [List.forall_mem_cons] at h
    rw [List.mapM_cons, List.mapM_cons, h.1, ih h.2]

theorem mapM_some {names : List String} {args : List V} (h : names.mapM env = some args)
    {x : String} (hx : x ∈ names) : ∃ v, env x = some v := by
  obtain ⟨i, hi⟩ := List.getElem?_of_mem hx
  obtain ⟨v, _, hv⟩ := mapM_getElem h hi
  exact ⟨v,hv⟩

theorem eval_cons (h : eval sem env (n :: ns) = some final) :
    ∃ args results, n.input.mapM env = some args ∧ sem n.op args = some results ∧
      eval sem (assign env n.output results) ns = some final := by
  rw [eval, Option.bind_eq_bind, Option.bind_eq_some_iff] at h
  obtain ⟨args, ha, rest⟩ := h
  obtain ⟨results, hr, rest⟩ := Option.bind_eq_some_iff.mp rest
  exact ⟨args,results,ha,hr,rest⟩

theorem eval_cons_of {args results : List V} (ha : n.input.mapM env = some args)
    (hr : sem n.op args = some results) :
    eval sem env (n :: ns) = eval sem (assign env n.output results) ns := by
  rw [eval, ha, Option.bind_eq_bind, Option.bind_some, hr, Option.bind_some]

theorem eval_append (pre post : List (Node ω)) :
    eval sem env (pre ++ post) = (eval sem env pre).bind fun mid => eval sem mid post := by
  induction pre generalizing env with
  | nil => rfl
  | cons n pre ih =>
    rw [List.cons_append, eval, eval]
    cases n.input.mapM env with
    | none => rfl
    | some args =>
      simp only [Option.bind_eq_bind, Option.bind_some]
      cases sem n.op args with
      | none => rfl
      | some results =>
        rw [Option.bind_some, Option.bind_some]
        exact ih

/-- A name that no node produces keeps its value. -/
theorem eval_frame {x : String} (h : eval sem env ns = some final)
    (hx : x ∉ ns.flatMap (·.output)) : final x = env x := by
  induction ns generalizing env with
  | nil => rw [← Option.some.inj h]
  | cons n ns ih =>
    obtain ⟨args, results, _, _, rest⟩ := eval_cons h
    rw [List.flatMap_cons, List.mem_append, not_or] at hx
    rw [ih rest hx.2, assign_of_notMem hx.1]

theorem SSA.tail (h : SSA env (n :: ns)) {results : List V} :
    SSA (assign env n.output results) ns := by
  obtain ⟨nodup, fresh⟩ := h
  rw [List.flatMap_cons, List.nodup_append] at nodup
  obtain ⟨_, tail, apart⟩ := nodup
  refine ⟨tail,fun x hx => ?_⟩
  have other : x ∉ n.output := fun mine => apart x mine x hx rfl
  rw [assign_of_notMem other]
  apply fresh
  rw [List.flatMap_cons]
  exact List.mem_append_right _ hx

/-- What a name meant when a node read it, it still means at the end. -/
theorem SSA.stable {x : String} {v : V} (ssa : SSA env ns) (h : eval sem env ns = some final)
    (hx : env x = some v) : final x = some v := by
  have kept : x ∉ ns.flatMap (·.output) := by
    intro made
    have fresh := ssa.2 x made
    rw [hx] at fresh
    cases fresh
  rw [eval_frame h kept, hx]

theorem SSA.after {pre post : List (Node ω)} {mid : Env V} (ssa : SSA env (pre ++ post))
    (h : eval sem env pre = some mid) : SSA mid post := by
  induction pre generalizing env with
  | nil => exact (Option.some.inj h) ▸ ssa
  | cons n pre ih =>
    obtain ⟨args, results, _, _, rest⟩ := eval_cons h
    exact ih ssa.tail rest

theorem SSA.before {pre post : List (Node ω)} (ssa : SSA env (pre ++ post)) : SSA env pre := by
  obtain ⟨nodup, fresh⟩ := ssa
  rw [List.flatMap_append] at nodup fresh
  exact ⟨(List.nodup_append.mp nodup).1,fun x hx => fresh x (List.mem_append_left _ hx)⟩

/-- A name that nothing produces is read by none of the nodes. -/
theorem notMem_input {x : String} (h : eval sem env ns = some final) (given : env x = none)
    (hx : x ∉ ns.flatMap (·.output)) : ∀ n ∈ ns, x ∉ n.input := by
  induction ns generalizing env with
  | nil => exact fun n hn => absurd hn List.not_mem_nil
  | cons n ns ih =>
    obtain ⟨args, results, ha, _, rest⟩ := eval_cons h
    rw [List.flatMap_cons, List.mem_append, not_or] at hx
    rw [List.forall_mem_cons]
    constructor
    · intro read
      obtain ⟨v, hv⟩ := mapM_some ha read
      rw [given] at hv
      cases hv
    · apply ih rest _ hx.2
      rw [assign_of_notMem hx.1, given]

section Simulation

/-- `σ` tells where the second environment has what the first has under a name. -/
def Simulates (R : V → V → Prop) (σ : String → String) (env env' : Env V) : Prop :=
  ∀ x v, env x = some v → ∃ v', env' (σ x) = some v' ∧ R v v'

/-- On related inputs a node's operation gives related results. -/
def Respects (R : V → V → Prop) (f : List V → Option (List V)) : Prop :=
  ∀ args args' results, List.Forall₂ R args args' → f args = some results →
    ∃ results', f args' = some results' ∧ List.Forall₂ R results results'

variable {R : V → V → Prop} {σ : String → String}

def Node.rewire (σ : String → String) (n : Node ω) : Node ω := { n with input := n.input.map σ }

theorem Simulates.inputs (h : Simulates R σ env env') {names : List String} {args : List V}
    (ha : names.mapM env = some args) :
    ∃ args', (names.map σ).mapM env' = some args' ∧ List.Forall₂ R args args' := by
  induction names generalizing args with
  | nil =>
    obtain rfl : [] = args := Option.some.inj ha
    exact ⟨[],rfl,.nil⟩
  | cons x names ih =>
    obtain ⟨v, vs, hv, hvs, rfl⟩ := mapM_cons_eq_some.mp ha
    obtain ⟨v', hv', related⟩ := h x v hv
    obtain ⟨vs', hvs', all⟩ := ih hvs
    exact ⟨v' :: vs',mapM_cons_eq_some.mpr ⟨v',vs',hv',hvs',rfl⟩,.cons related all⟩

/-- What is read under the two names, side by side. -/
theorem zip_read {names : List String} {values values' : List V} (h : names.mapM env = some values)
    (h' : (names.map σ).mapM env' = some values') :
    List.Forall₂ (fun o o' => env o.1 = some o.2 ∧ o'.1 = σ o.1 ∧ env' (σ o.1) = some o'.2)
      (names.zip values) ((names.map σ).zip values') := by
  induction names generalizing values values' with
  | nil => exact .nil
  | cons x names ih =>
    obtain ⟨v, vs, hv, hvs, rfl⟩ := mapM_cons_eq_some.mp h
    obtain ⟨v', vs', hv', hvs', rfl⟩ := mapM_cons_eq_some.mp h'
    exact .cons ⟨hv,rfl,hv'⟩ (ih hvs hvs')

theorem lookup_related {names : List String} {values values' : List V} {x : String} {v : V}
    (related : List.Forall₂ R values values') (h : (names.zip values).lookup x = some v) :
    ∃ v', (names.zip values').lookup x = some v' ∧ R v v' := by
  induction related generalizing names with
  | nil => simp at h
  | @cons a a' values values' head _ ih =>
    cases names with
    | nil => simp at h
    | cons name names =>
      rw [List.zip_cons_cons, List.lookup_cons] at h ⊢
      cases hx : x == name with
      | true =>
        rw [hx] at h
        obtain rfl : a = v := Option.some.inj h
        exact ⟨a',rfl,head⟩
      | false =>
        rw [hx] at h
        exact ih h

theorem lookup_length {names : List String} {values values' : List V} {x : String}
    (same : values.length = values'.length) (h : (names.zip values).lookup x = none) :
    (names.zip values').lookup x = none := by
  rw [List.lookup_eq_none_iff] at h ⊢
  intro p hp
  obtain ⟨i, hi, rfl⟩ := List.mem_iff_getElem.mp hp
  have bound : i < (names.zip values).length := by
    rw [List.length_zip] at hi ⊢
    omega
  have apart := h _ (List.getElem_mem bound)
  rw [List.getElem_zip] at apart ⊢
  exact apart

theorem Simulates.assign (h : Simulates R σ env env') {names : List String}
    {values values' : List V} (related : List.Forall₂ R values values')
    (fixed : ∀ x ∈ names, σ x = x) (apart : ∀ x, x ∉ names → σ x ∉ names) :
    Simulates R σ (assign env names values) (Dataflow.assign env' names values') := by
  intro x v hv
  by_cases hx : x ∈ names
  · rw [fixed x hx]
    cases hl : (names.zip values).lookup x with
    | some w =>
      rw [Dataflow.assign, hl, Option.some_or] at hv
      obtain ⟨w', hw', rel⟩ := lookup_related related hl
      refine ⟨w',?_,(Option.some.inj hv) ▸ rel⟩
      rw [Dataflow.assign, hw', Option.some_or]
    | none =>
      rw [Dataflow.assign, hl, Option.none_or] at hv
      obtain ⟨v', hv', rel⟩ := h x v hv
      rw [fixed x hx] at hv'
      refine ⟨v',?_,rel⟩
      rw [Dataflow.assign, lookup_length related.length_eq hl, Option.none_or, hv']
  · rw [assign_of_notMem hx] at hv
    rw [assign_of_notMem (apart x hx)]
    exact h x v hv

/-- A graph whose nodes read their inputs under other names, from related values. -/
theorem Simulates.eval (h : Simulates R σ env env')
    (respects : ∀ n ∈ ns, Respects R (sem n.op))
    (fixed : ∀ n ∈ ns, ∀ x ∈ n.output, σ x = x)
    (apart : ∀ n ∈ ns, ∀ x, x ∉ n.output → σ x ∉ n.output)
    (he : Dataflow.eval sem env ns = some final) :
    ∃ final', Dataflow.eval sem env' (ns.map (Node.rewire σ)) = some final' ∧
      Simulates R σ final final' := by
  induction ns generalizing env env' with
  | nil => exact ⟨env',rfl,(Option.some.inj he) ▸ h⟩
  | cons n ns ih =>
    rw [List.forall_mem_cons] at respects fixed apart
    obtain ⟨args, results, ha, hr, rest⟩ := eval_cons he
    obtain ⟨args', ha', related⟩ := h.inputs ha
    obtain ⟨results', hr', relatedResults⟩ := respects.1 args args' results related hr
    rw [List.map_cons, eval_cons_of (n := Node.rewire σ n) ha' hr']
    have next := h.assign relatedResults fixed.1 apart.1
    exact ih next respects.2 fixed.2 apart.2 rest

end Simulation

end Dataflow

end Framework
