import XivelyClient.Lib.Runs

/-! Runs that are bound to come to their goal. -/
namespace Runs

universe u v

variable {σ : Type u} {ε : Type v}

/-- A bound on how many moves are left, which no allowed event raises and every move lowers, until the goal is there for good. -/
structure Descent (step : σ → ε → σ) (allowed : ε → Prop) (moves : ε → Bool) (within : Nat → σ → Prop) (goal : σ → Prop) : Prop where
  positive : ∀ n s, within n s → 0 < n
  moved : ∀ n s e, within n s → allowed e → moves e = true → goal (step s e) ∨ ∃ m < n, within m (step s e)
  stayed : ∀ n s e, within n s → allowed e → moves e = false → goal (step s e) ∨ ∃ m ≤ n, within m (step s e)
  kept : ∀ s e, goal s → allowed e → goal (step s e)

namespace Descent

variable {step : σ → ε → σ} {allowed : ε → Prop} {moves : ε → Bool} {within : Nat → σ → Prop} {goal : σ → Prop}
  {n : Nat} {s : σ} {events : List ε}

theorem rests (descent : Descent step allowed moves within goal) (there : goal s) (each : ∀ e ∈ events, allowed e) :
    goal (final step s events) := by
  induction events generalizing s with
  | nil => exact there
  | cons e events ih =>
    obtain ⟨first,rest⟩ := List.forall_mem_cons.mp each
    exact ih (descent.kept s e there first) rest

/-- The moves that were made are no longer left. -/
theorem bounds (descent : Descent step allowed moves within goal) (start : within n s) (each : ∀ e ∈ events, allowed e) :
    goal (final step s events) ∨ ∃ m, m + events.countP moves ≤ n ∧ within m (final step s events) := by
  induction events generalizing n s with
  | nil => exact .inr ⟨n,by simp,start⟩
  | cons e events ih =>
    obtain ⟨first,rest⟩ := List.forall_mem_cons.mp each
    rw [final_cons]
    cases move : moves e with
    | true =>
      rcases descent.moved n s e start first move with there | ⟨m,lower,inside⟩
      · exact .inl (descent.rests there rest)
      · refine (ih inside rest).imp_right fun ⟨k,left,last⟩ => ⟨k,?_,last⟩
        rw [List.countP_cons_of_pos move]
        omega
    | false =>
      rcases descent.stayed n s e start first move with there | ⟨m,lower,inside⟩
      · exact .inl (descent.rests there rest)
      · refine (ih inside rest).imp_right fun ⟨k,left,last⟩ => ⟨k,?_,last⟩
        rw [List.countP_cons_of_neg (by rw [move]; exact Bool.false_ne_true)]
        omega

/-- Where as many moves are made as there may be, the goal is reached. -/
theorem reaches (descent : Descent step allowed moves within goal) (start : within n s) (each : ∀ e ∈ events, allowed e)
    (enough : n ≤ events.countP moves) : goal (final step s events) := by
  rcases descent.bounds start each with there | ⟨m,left,inside⟩
  · exact there
  · have := descent.positive m _ inside
    omega

end Descent

end Runs
