/-! Systems that answer requests, and what it takes for one to refine another. -/
namespace Simulation

universe u v w x

variable {σ : Type u} {τ : Type v} {ι : Type w} {ο : Type x}

/-- A run from `start`, with every request and its answer. -/
inductive Run (step : σ → ι → ο → σ → Prop) (start : σ) : List (ι × ο) → σ → Prop
  | start : Run step start [] start
  | step {trace : List (ι × ο)} {s s' : σ} {request : ι} {answer : ο} (run : Run step start trace s)
    (stepped : step s request answer s') : Run step start (trace ++ [(request,answer)]) s'

variable {step : σ → ι → ο → σ → Prop} {spec : τ → ι → ο → τ → Prop} {s s' : σ} {t : τ} {trace : List (ι × ο)}

/-- What every step keeps holds at the end of every run. -/
theorem Run.invariant {I : σ → Prop} (keep : ∀ s request answer s', I s → step s request answer s' → I s') (first : I s)
    (run : Run step s trace s') : I s' := by
  induction run with
  | start => exact first
  | step run stepped ih => exact keep _ _ _ _ ih stepped

/-- Where related states stay related, with the same answers, every run of the one system is a run of the other. -/
theorem Run.simulated {R : σ → τ → Prop}
    (forward : ∀ s t request answer s', R s t → step s request answer s' → ∃ t', spec t request answer t' ∧ R s' t') (related : R s t)
    (run : Run step s trace s') : ∃ t', Run spec t trace t' ∧ R s' t' := by
  induction run with
  | start => exact ⟨t,.start,related⟩
  | step run stepped ih =>
    obtain ⟨t',run',related'⟩ := ih
    obtain ⟨t'',stepped',related''⟩ := forward _ _ _ _ _ related' stepped
    exact ⟨t'',.step run' stepped',related''⟩

end Simulation
