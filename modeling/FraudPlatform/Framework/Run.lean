import Mathlib.Data.List.Basic

namespace Framework

variable {σ ε ρ : Type*}

/-- The state after a list of events. -/
def run (step : σ → ε → σ) (s : σ) (es : List ε) : σ := es.foldl step s

/-- `P` in every state of the run, the first and the last included. -/
def Always (step : σ → ε → σ) (P : σ → Prop) : σ → List ε → Prop
  | s, [] => P s
  | s, e :: es => P s ∧ Always step P (step s e) es

/-- `ok` of every event together with the state it meets. -/
def Throughout (step : σ → ε → σ) (ok : σ → ε → Prop) : σ → List ε → Prop
  | _, [] => True
  | s, e :: es => ok s e ∧ Throughout step ok (step s e) es

/-- What an observer notes of each event, in order; `none` is an event it does not see. -/
def trace (step : σ → ε → σ) (obs : σ → ε → Option ρ) : σ → List ε → List ρ
  | _, [] => []
  | s, e :: es => (obs s e).toList ++ trace step obs (step s e) es

variable (step : σ → ε → σ)

@[simp] theorem run_nil (s : σ) : run step s [] = s := rfl

@[simp] theorem run_cons (s : σ) (e : ε) (es : List ε) :
    run step s (e :: es) = run step (step s e) es := rfl

theorem run_append (s : σ) (es fs : List ε) :
    run step s (es ++ fs) = run step (run step s es) fs := List.foldl_append

theorem run_concat (s : σ) (es : List ε) (e : ε) :
    run step s (es ++ [e]) = step (run step s es) e := by
  rw [run_append, run_cons, run_nil]

/-- A note of the trace was taken at one event of the run. -/
theorem trace_split {obs : σ → ε → Option ρ} {s : σ} {es : List ε} {ps qs : List ρ} {r : ρ}
    (h : trace step obs s es = ps ++ r :: qs) :
    ∃ pre e post, es = pre ++ e :: post ∧ trace step obs s pre = ps ∧
      obs (run step s pre) e = some r ∧ trace step obs (run step s (pre ++ [e])) post = qs := by
  induction es generalizing s ps with
  | nil => simp [trace] at h
  | cons e es ih =>
    cases ho : obs s e with
    | none =>
      simp only [trace, ho, Option.toList_none, List.nil_append] at h
      obtain ⟨pre, f, post, he, hp, hr, hq⟩ := ih h
      refine ⟨e :: pre, f, post, by rw [he, List.cons_append], ?_, hr, hq⟩
      simpa only [trace, ho, Option.toList_none, List.nil_append] using hp
    | some a =>
      simp only [trace, ho, Option.toList_some, List.singleton_append] at h
      cases ps with
      | nil =>
        simp only [List.nil_append, List.cons.injEq] at h
        exact ⟨[], e, es, rfl, rfl, by rw [run_nil, ho, h.1], h.2⟩
      | cons p ps =>
        simp only [List.cons_append, List.cons.injEq] at h
        obtain ⟨pre, f, post, he, hp, hr, hq⟩ := ih h.2
        refine ⟨e :: pre, f, post, by rw [he, List.cons_append], ?_, hr, hq⟩
        simp only [trace, ho, Option.toList_some, List.singleton_append, hp, h.1]

theorem always_last {P : σ → Prop} {s : σ} {es : List ε} (h : Always step P s es) :
    P (run step s es) := by
  induction es generalizing s with
  | nil => exact h
  | cons e es ih => exact ih h.2

theorem always_head {P : σ → Prop} {s : σ} {es : List ε} (h : Always step P s es) : P s := by
  cases es with
  | nil => exact h
  | cons e es => exact h.1

theorem always_imp {P Q : σ → Prop} (imp : ∀ s, P s → Q s) {s : σ} {es : List ε}
    (h : Always step P s es) : Always step Q s es := by
  induction es generalizing s with
  | nil => exact imp s h
  | cons e es ih => exact ⟨imp s h.1,ih h.2⟩

/-- What a run from here comes to may be worked out under what holds here. -/
theorem always_iff_and {P : σ → Prop} {Q : Prop} {s : σ} {es : List ε}
    (h : P s → (Always step P s es ↔ Q)) : Always step P s es ↔ P s ∧ Q := by
  constructor
  · intro always
    have first := always_head step always
    exact ⟨first,(h first).mp always⟩
  · rintro ⟨first, rest⟩
    exact (h first).mpr rest

theorem always_append {P : σ → Prop} {s : σ} {es fs : List ε} :
    Always step P s (es ++ fs) ↔ Always step P s es ∧ Always step P (run step s es) fs := by
  induction es generalizing s with
  | nil => exact ⟨fun h => ⟨always_head step h, h⟩, fun h => h.2⟩
  | cons e es ih => simp only [List.cons_append, Always, ih, run_cons, and_assoc]

theorem always_iff_reached {P : σ → Prop} {s : σ} {es : List ε} :
    Always step P s es ↔ ∀ pre post, es = pre ++ post → P (run step s pre) := by
  constructor
  · rintro h pre post rfl
    exact always_last step ((always_append step).mp h).1
  · intro h
    induction es generalizing s with
    | nil => exact h [] [] rfl
    | cons e es ih =>
      refine ⟨h [] (e :: es) rfl, ih ?_⟩
      rintro pre post rfl
      exact h (e :: pre) post rfl

theorem throughout_append {ok : σ → ε → Prop} {s : σ} {es fs : List ε} :
    Throughout step ok s (es ++ fs) ↔
      Throughout step ok s es ∧ Throughout step ok (run step s es) fs := by
  induction es generalizing s with
  | nil => simp [Throughout]
  | cons e es ih => simp only [List.cons_append, Throughout, ih, run_cons, and_assoc]

theorem throughout_iff_split {ok : σ → ε → Prop} {s : σ} {es : List ε} :
    Throughout step ok s es ↔
      ∀ pre e post, es = pre ++ e :: post → ok (run step s pre) e := by
  induction es generalizing s with
  | nil => simp [Throughout]
  | cons f es ih =>
    refine ⟨fun h pre e post he => ?_, fun h => ⟨h [] f es rfl,ih.mpr ?_⟩⟩
    · cases pre with
      | nil =>
        rw [List.nil_append, List.cons.injEq] at he
        rw [← he.1]
        exact h.1
      | cons g pre =>
        rw [List.cons_append, List.cons.injEq] at he
        rw [← he.1]
        exact ih.mp h.2 pre e post he.2
    · intro pre e post he
      exact h (f :: pre) e post (by rw [he, List.cons_append])

/-- The invariant rule: what one permitted step keeps, a run of permitted steps keeps. -/
theorem always_of_throughout {P : σ → Prop} {ok : σ → ε → Prop}
    (keep : ∀ s e, P s → ok s e → P (step s e)) {s : σ} {es : List ε} (hs : P s)
    (h : Throughout step ok s es) : Always step P s es := by
  induction es generalizing s with
  | nil => exact hs
  | cons e es ih => exact ⟨hs, ih (keep s e hs h.1) h.2⟩

/-- What every step keeps, every run keeps. -/
theorem always_of_step {P : σ → Prop} (keep : ∀ s e, P s → P (step s e)) {s : σ} (hs : P s)
    (es : List ε) : Always step P s es := by
  induction es generalizing s with
  | nil => exact hs
  | cons e es ih => exact ⟨hs, ih (keep s e hs)⟩

theorem throughout_of_forall {ok : σ → ε → Prop} (h : ∀ s e, ok s e) (s : σ) (es : List ε) :
    Throughout step ok s es := by
  induction es generalizing s with
  | nil => exact trivial
  | cons e es ih => exact ⟨h s e, ih (step s e)⟩

/-- The simulation rule: an abstraction that follows every permitted step follows the run. -/
theorem always_refine {τ δ : Type*} {step' : τ → δ → τ} (abs : σ → τ) (f : ε → δ)
    {ok : σ → ε → Prop} (sim : ∀ s e, ok s e → abs (step s e) = step' (abs s) (f e))
    {P : τ → Prop} {s : σ} {es : List ε} (h : Throughout step ok s es) :
    Always step (fun s => P (abs s)) s es ↔ Always step' P (abs s) (es.map f) := by
  induction es generalizing s with
  | nil => exact Iff.rfl
  | cons e es ih =>
    have tail := ih h.2
    rw [sim s e h.1] at tail
    exact and_congr Iff.rfl tail

/-- What every permitted step keeps once it holds, holds from then on. -/
theorem persists_of_throughout {Q : σ → Prop} {ok : σ → ε → Prop}
    (keep : ∀ s e, ok s e → Q s → Q (step s e)) {s : σ} {es pre mid post : List ε}
    (h : Throughout step ok s es) (he : es = pre ++ mid ++ post) (hq : Q (run step s pre)) :
    Q (run step s (pre ++ mid)) := by
  rw [he, throughout_append, throughout_append] at h
  rw [run_append]
  exact always_last step (always_of_throughout step (fun t e ht hok => keep t e hok ht) hq h.1.2)

/-- What does not hold at first and holds at last was brought about by some event. -/
theorem exists_turn {P : σ → Prop} {s : σ} {es : List ε} (first : ¬P s) (last : P (run step s es)) :
    ∃ pre e post, es = pre ++ e :: post ∧ ¬P (run step s pre) ∧
      P (step (run step s pre) e) := by
  induction es generalizing s with
  | nil => exact absurd last first
  | cons e es ih =>
    by_cases here : P (step s e)
    · exact ⟨[],e,es,rfl,first,here⟩
    · obtain ⟨pre, f, post, he, before, after⟩ := ih here last
      exact ⟨e :: pre,f,post,by rw [he, List.cons_append],before,after⟩

end Framework
