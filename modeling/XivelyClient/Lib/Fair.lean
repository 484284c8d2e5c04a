import Mathlib.Data.List.Basic
import XivelyClient.Lib.Runs

/-! Machines that threads drive in turns. Where a thread that can go on stays so until its turn, and its turn lowers a measure that the other
events raise by what they cost at most, every fair schedule that is long enough finishes. -/
namespace Runs

universe u v w

variable {σ : Type u} {ε : Type v} {θ : Type w} {step : σ → ε → σ} {enabled : σ → ε → Prop} {s : σ} {events more : List ε}

/-- What the events of a list cost. -/
def costs (cost : ε → Nat) : List ε → Nat
  | [] => 0
  | e :: events => cost e + costs cost events

theorem costs_append (cost : ε → Nat) : costs cost (events ++ more) = costs cost events + costs cost more := by
  induction events with
  | nil => exact (Nat.zero_add _).symm
  | cons e events ih => rw [List.cons_append,costs,costs,ih,Nat.add_assoc]

/-- `turn` is a thread's own event, and `I` holds on the way. -/
structure Descends (step : σ → ε → σ) (enabled : σ → ε → Prop) (I finished : σ → Prop) (left : σ → Nat) (cost : ε → Nat) (turn : θ → ε)
    (ready : σ → θ → Prop) (threads : θ → Prop) : Prop where
  keep : ∀ s e, I s → enabled s e → I (step s e)
  most : ∀ s e, I s → enabled s e → left (step s e) ≤ left s + cost e
  less : ∀ s t, I s → ready s t → left (step s (turn t)) < left s
  stays : ∀ s e t, I s → enabled s e → e ≠ turn t → ready s t → ready (step s e) t
  someone : ∀ s, I s → ¬ finished s → ∃ t, threads t ∧ ready s t
  finished : ∀ s e, I s → enabled s e → finished s → finished (step s e)

namespace Descends

variable {I finished : σ → Prop} {left : σ → Nat} {cost : ε → Nat} {turn : θ → ε} {ready : σ → θ → Prop} {threads : θ → Prop}

theorem run (descends : Descends step enabled I finished left cost turn ready threads) (holds : I s)
    (admissible : Admissible step enabled s events) : I (final step s events) ∧ left (final step s events) ≤ left s + costs cost events := by
  induction events generalizing s with
  | nil => exact ⟨holds,Nat.le_refl _⟩
  | cons e events ih =>
    have most := descends.most s e holds admissible.1
    obtain ⟨after,rest⟩ := ih (descends.keep s e holds admissible.1) admissible.2
    refine ⟨after,?_⟩
    rw [costs,final_cons]
    omega

theorem finished_run (descends : Descends step enabled I finished left cost turn ready threads) (holds : I s) (ended : finished s)
    (admissible : Admissible step enabled s events) : finished (final step s events) := by
  induction events generalizing s with
  | nil => exact ended
  | cons e events ih => exact ih (descends.keep s e holds admissible.1) (descends.finished s e holds admissible.1 ended) admissible.2

theorem less_run {t : θ} (descends : Descends step enabled I finished left cost turn ready threads) (holds : I s) (waits : ready s t)
    (admissible : Admissible step enabled s events) (comes : turn t ∈ events) :
    left (final step s events) < left s + costs cost events := by
  induction events generalizing s with
  | nil => cases comes
  | cons e events ih =>
    have after := descends.keep s e holds admissible.1
    rw [costs,final_cons]
    by_cases now : e = turn t
    · have less := descends.less s t holds waits
      have rest := (descends.run after admissible.2).2
      rw [now] at rest ⊢
      omega
    · have most := descends.most s e holds admissible.1
      have rest := ih after (descends.stays s e t holds admissible.1 now waits) admissible.2 ((List.mem_cons.mp comes).resolve_left (Ne.symm now))
      omega

/-- A round in which every thread has its turn lowers the measure by one at least. -/
theorem rounds {rounds : List (List ε)} (descends : Descends step enabled I finished left cost turn ready threads) (holds : I s)
    (admissible : Admissible step enabled s rounds.flatten) (fair : ∀ round ∈ rounds, ∀ t, threads t → turn t ∈ round)
    (enough : left s + costs cost rounds.flatten ≤ rounds.length) : finished (final step s rounds.flatten) := by
  induction rounds generalizing s with
  | nil =>
    by_contra going
    obtain ⟨t,_,waits⟩ := descends.someone s holds going
    have less := descends.less s t holds waits
    have none' : left s ≤ 0 := Nat.le_trans (Nat.le_add_right _ _) enough
    omega
  | cons round rounds ih =>
    by_cases ended : finished s
    · exact descends.finished_run holds ended admissible
    · rw [List.flatten_cons] at admissible enough ⊢
      obtain ⟨first,rest⟩ := admissible_append.mp admissible
      obtain ⟨t,has,waits⟩ := descends.someone s holds ended
      have less := descends.less_run holds waits first (fair round List.mem_cons_self t has)
      rw [final_append]
      refine ih (descends.run holds first).1 rest (fun round' later => fair round' (List.mem_cons_of_mem _ later)) ?_
      rw [costs_append,List.length_cons] at enough
      omega

end Descends

end Runs
