import FraudPlatform.Framework.Run
import FraudPlatform.Framework.Table

namespace Framework.Table

variable {κ ρ σ ε : Type*} {key : ρ → κ} [DecidableEq κ] {step : σ → ε → σ}

theorem find?_persists {t : Table key} {rs : List ρ} {k : κ} {r : ρ} (h : t.find? k = some r) :
    (t.insertAll rs).find? k = some r := by
  rw [find?_insertAll, h, Option.some_or]

theorem find?_of_mem {t : Table key} {rs : List ρ} {r : ρ} (h : r ∈ rs) :
    ∃ q, (t.insertAll rs).find? (key r) = some q := by
  rw [find?_insertAll]
  cases t.find? (key r) with
  | some q => exact ⟨q,rfl⟩
  | none =>
    have met : (rs.find? fun q => key q = key r).isSome := by
      rw [List.find?_isSome]
      exact ⟨r,h,by simp⟩
    exact Option.isSome_iff_exists.mp met

/-- A table that every step only offers rows to. -/
def Offered (step : σ → ε → σ) (table : σ → Table key) (offer : σ → ε → List ρ) : Prop :=
  ∀ s e, table (step s e) = (table s).insertAll (offer s e)

variable {table : σ → Table key} {offer : σ → ε → List ρ}

/-- Such a table grows at its end, by rows that were each offered once by an event of the run. -/
theorem Offered.sound (h : Offered step table offer) (s : σ) (es : List ε) :
    ∃ rows, (table (run step s es)).rows = (table s).rows ++ rows ∧
      ∀ r ∈ rows, ∃ pre e post, es = pre ++ e :: post ∧ r ∈ offer (run step s pre) e := by
  induction es generalizing s with
  | nil => exact ⟨[],(List.append_nil _).symm,fun r hr => absurd hr List.not_mem_nil⟩
  | cons e es ih =>
    obtain ⟨rows, grown, origin⟩ := ih (step s e)
    refine ⟨(table s).inserted (offer s e) ++ rows,?_,fun r hr => ?_⟩
    · rw [run_cons, grown, h, insertAll_rows, List.append_assoc]
    · obtain now | later := List.mem_append.mp hr
      · exact ⟨[],e,es,rfl,inserted_sublist.mem now⟩
      · obtain ⟨pre, f, post, eq, offered⟩ := origin r later
        exact ⟨e :: pre,f,post,by rw [eq, List.cons_append],offered⟩

theorem Offered.persists (h : Offered step table offer) {s : σ} {k : κ} {r : ρ}
    (there : (table s).find? k = some r) (es : List ε) :
    (table (run step s es)).find? k = some r := by
  induction es generalizing s with
  | nil => exact there
  | cons e es ih =>
    apply ih
    rw [h]
    exact find?_persists there

/-- A row that was offered has its key in the table ever after. -/
theorem Offered.complete (h : Offered step table offer) (s : σ) {pre post : List ε} {e : ε} {r : ρ}
    (offered : r ∈ offer (run step s pre) e) :
    ∃ q, (table (run step s (pre ++ e :: post))).find? (key r) = some q := by
  have taken : ∃ q, (table (step (run step s pre) e)).find? (key r) = some q := by
    rw [h]
    exact find?_of_mem offered
  obtain ⟨q, hq⟩ := taken
  exact ⟨q,by rw [run_append, run_cons]; exact h.persists hq post⟩

end Framework.Table
