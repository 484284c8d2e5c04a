import Mathlib.Order.Nat

/-! Finite runs of a machine whose steps are chosen by an environment. The machine is a function of its
state and the event; `enabled` says which events the environment may send. -/
namespace Runs

universe u v

variable {σ : Type u} {ε : Type v} (step : σ → ε → σ) (enabled : σ → ε → Prop)

def final (s : σ) (events : List ε) : σ := events.foldl step s

def Admissible : σ → List ε → Prop
  | _,[] => True
  | s,e :: events => enabled s e ∧ Admissible (step s e) events

/-- `P` holds in every state of the run. -/
def Always (P : σ → Prop) : σ → List ε → Prop
  | s,[] => P s
  | s,e :: events => P s ∧ Always P (step s e) events

instance [decidable : ∀ s e, Decidable (enabled s e)] : ∀ s events, Decidable (Admissible step enabled s events)
  | _,[] => isTrue trivial
  | s,e :: events =>
    have := instDecidableAdmissible (step s e) events
    inferInstanceAs (Decidable (enabled s e ∧ Admissible step enabled (step s e) events))

@[simp] theorem final_nil (s : σ) : final step s [] = s := rfl

@[simp] theorem final_cons (s : σ) (e : ε) (events : List ε) :
    final step s (e :: events) = final step (step s e) events := rfl

variable {step enabled} {P Q I : σ → Prop} {s : σ} {events : List ε}

theorem Admissible.and {enabled' : σ → ε → Prop} (first : Admissible step enabled s events) (second : Admissible step enabled' s events) :
    Admissible step (fun s e => enabled s e ∧ enabled' s e) s events := by
  induction events generalizing s with
  | nil => trivial
  | cons e events ih => exact ⟨⟨first.1,second.1⟩,ih first.2 second.2⟩

theorem final_append {more : List ε} : final step s (events ++ more) = final step (final step s events) more := List.foldl_append

theorem admissible_append {more : List ε} :
    Admissible step enabled s (events ++ more) ↔ Admissible step enabled s events ∧ Admissible step enabled (final step s events) more := by
  induction events generalizing s with
  | nil => exact (and_iff_right trivial).symm
  | cons e events ih => exact (and_congr_right fun _ => ih).trans (and_assoc).symm

theorem Always.first (always : Always step P s events) : P s := by
  cases events with
  | nil => exact always
  | cons e events => exact always.1

theorem Always.last (always : Always step P s events) : P (final step s events) := by
  induction events generalizing s with
  | nil => exact always
  | cons e events ih => exact ih always.2

theorem Always.mono (weaker : ∀ s, P s → Q s) (always : Always step P s events) : Always step Q s events := by
  induction events generalizing s with
  | nil => exact weaker s always
  | cons e events ih => exact ⟨weaker s always.1,ih always.2⟩

/-- What every enabled step keeps holds in every state. -/
theorem always_of_step (keep : ∀ s e, I s → enabled s e → I (step s e)) (start : I s)
    (admissible : Admissible step enabled s events) : Always step I s events := by
  induction events generalizing s with
  | nil => exact start
  | cons e events ih => exact ⟨start,ih (keep s e start admissible.1) admissible.2⟩

theorem always_of_invariant (keep : ∀ s e, I s → I (step s e)) (start : I s) : Always step I s events := by
  induction events generalizing s with
  | nil => exact start
  | cons e events ih => exact ⟨start,ih (keep s e start)⟩

section Failures

/-! A machine that counts its failures. `I` is kept by every step in which nothing fails. -/

variable {failures : σ → Nat}

theorem failures_le_final (grows : ∀ s e, failures s ≤ failures (step s e)) :
    failures s ≤ failures (final step s events) := by
  induction events generalizing s with
  | nil => exact le_rfl
  | cons e events ih => exact (grows s e).trans ih

theorem always_of_no_failure (grows : ∀ s e, failures s ≤ failures (step s e))
    (keep : ∀ s e, I s → enabled s e → I (step s e) ∨ 0 < failures (step s e)) (start : I s)
    (admissible : Admissible step enabled s events) (clean : failures (final step s events) = 0) :
    Always step I s events := by
  induction events generalizing s with
  | nil => exact start
  | cons e events ih =>
    rcases keep s e start admissible.1 with kept | failed
    · exact ⟨start,ih kept admissible.2 clean⟩
    · have later : failures (step s e) ≤ failures (final step (step s e) events) := failures_le_final grows
      rw [final_cons] at clean
      omega

/-- Where a first failure always breaks `P`, a run with one failure at most has `P` throughout exactly if
it has no failure. -/
theorem always_iff_no_failure (grows : ∀ s e, failures s ≤ failures (step s e))
    (good : ∀ s, I s → P s ∧ failures s = 0)
    (keep : ∀ s e, I s → enabled s e →
      I (step s e) ∨ (0 < failures (step s e) ∧ (failures (step s e) ≤ 1 → ¬ P (step s e))))
    (start : I s) (admissible : Admissible step enabled s events)
    (single : failures (final step s events) ≤ 1) :
    Always step P s events ↔ failures (final step s events) = 0 := by
  constructor
  · intro always
    induction events generalizing s with
    | nil => exact (good s start).2
    | cons e events ih =>
      rcases keep s e start admissible.1 with kept | ⟨_,broken⟩
      · exact ih kept admissible.2 single always.2
      · have later : failures (step s e) ≤ failures (final step (step s e) events) := failures_le_final grows
        rw [final_cons] at single
        exact absurd always.2.first (broken (later.trans single))
  · intro clean
    refine Always.mono (fun s kept => (good s kept).1) (always_of_no_failure grows ?_ start admissible clean)
    intro s e kept may
    exact (keep s e kept may).imp_right And.left

end Failures

section Partial

/-! A machine whose steps may have no result. A run ends with the first of these. -/

variable {next : σ → ε → Option σ} {good wanted : σ → ε → Prop}

/-- `P` holds of every step of the run. -/
def Each (next : σ → ε → Option σ) (P : σ → ε → Prop) : σ → List ε → Prop
  | _,[] => True
  | s,e :: events => P s e ∧ ∀ s', next s e = some s' → Each next P s' events

theorem Each.last {P : σ → ε → Prop} {e : ε} {s' : σ} (each : Each next P s (events ++ [e])) (run : events.foldlM next s = some s') :
    P s' e := by
  induction events generalizing s with
  | nil =>
    obtain rfl := Option.some.inj run
    exact each.1
  | cons first events ih =>
    obtain ⟨after,stepped,rest⟩ := Option.bind_eq_some_iff.mp run
    exact ih (each.2 after stepped) rest

/-- What `I` says of every step holds of each, if every step keeps `I`. -/
theorem each_of_invariant (good : ∀ s e, I s → wanted s e) (keep : ∀ s e s', I s → next s e = some s' → I s') (start : I s) :
    Each next wanted s events := by
  induction events generalizing s with
  | nil => trivial
  | cons e events ih => exact ⟨good s e start,fun s' stepped => ih (keep s e s' start stepped)⟩

/-- A run of good steps, which keep `I`, is one of wanted steps. -/
theorem each_of_each (implies : ∀ s e, I s → good s e → wanted s e) (keep : ∀ s e s', I s → good s e → next s e = some s' → I s')
    (start : I s) (each : Each next good s events) : Each next wanted s events := by
  induction events generalizing s with
  | nil => trivial
  | cons e events ih =>
    exact ⟨implies s e start each.1,fun s' stepped => ih (keep s e s' start each.1 stepped) (each.2 s' stepped)⟩

/-- Where `I` is kept by every wanted step, and says when a step is wanted, the runs of wanted steps are known by their steps. -/
theorem each_iff (same : ∀ s e, I s → (wanted s e ↔ good s e)) (keep : ∀ s e s', I s → wanted s e → next s e = some s' → I s')
    (start : I s) : Each next wanted s events ↔ Each next good s events := by
  induction events generalizing s with
  | nil => exact Iff.rfl
  | cons e events ih =>
    constructor
    · rintro ⟨first,rest⟩
      exact ⟨(same s e start).mp first,fun s' stepped => (ih (keep s e s' start first stepped)).mp (rest s' stepped)⟩
    · rintro ⟨first,rest⟩
      have first' := (same s e start).mpr first
      exact ⟨first',fun s' stepped => (ih (keep s e s' start first' stepped)).mpr (rest s' stepped)⟩

/-- The same for the runs that the environment may choose. -/
theorem each_iff_of_each {may : σ → ε → Prop} (same : ∀ s e, I s → may s e → (wanted s e ↔ good s e))
    (keep : ∀ s e s', I s → may s e → wanted s e → next s e = some s' → I s') (start : I s) (allowed : Each next may s events) :
    Each next wanted s events ↔ Each next good s events := by
  induction events generalizing s with
  | nil => exact Iff.rfl
  | cons e events ih =>
    have step := same s e start allowed.1
    constructor
    · rintro ⟨first,rest⟩
      exact ⟨step.mp first,fun s' stepped =>
        (ih (keep s e s' start allowed.1 first stepped) (allowed.2 s' stepped)).mp (rest s' stepped)⟩
    · rintro ⟨first,rest⟩
      exact ⟨step.mpr first,fun s' stepped =>
        (ih (keep s e s' start allowed.1 (step.mpr first) stepped) (allowed.2 s' stepped)).mpr (rest s' stepped)⟩

end Partial

end Runs
