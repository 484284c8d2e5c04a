import XivelyClient.Lib.Runs
import XivelyClient.TimedTask.Operations

/-! The life of a timed task in any run. -/
namespace XivelyClient.TimedTask

open Handle EventDispatcher

instance (scheduler : Scheduler) : ∀ event, Decidable (Enabled scheduler event)
  | .add address event _ _ | .executeOther event address _ => inferInstanceAs
    (Decidable (scheduler.task address = none ∧ scheduler.other address = false ∧ event ∉ scheduler.timeEvents.array))
  | .finish event => inferInstanceAs (Decidable (event ∉ scheduler.timeEvents.array))
  | .cancelOther address | .restartOther address _ => inferInstanceAs (Decidable (scheduler.other address = true))
  | .remove _ | .clock _ | .start => isTrue trivial

def next (scheduler : Scheduler) (event : Event) : Option Scheduler := if Enabled scheduler event then perform scheduler event else none

/-- What holds of the tasks between any two calls. -/
structure Orderly (scheduler : Scheduler) : Prop where
  ordered : scheduler.log.Pairwise Before
  once : ∀ serial handle, .added serial handle true ∈ scheduler.log → scheduler.log.count (.started serial) ≤ 1
  pending : ∀ address known, scheduler.task address = some known →
    (scheduler.timeEvents.array.map scheduler.timeEvents.owner).count address = if known.state = .scheduled then 1 else 0
  owned : ∀ event ∈ scheduler.timeEvents.array,
    (∃ known, scheduler.task (scheduler.timeEvents.owner event) = some known) ∨ scheduler.other (scheduler.timeEvents.owner event) = true
  called : ∀ address ∈ scheduler.running, ∃ known, scheduler.task address = some known
  slots : ∀ address, some address ∈ scheduler.timedTasksVector.contents ↔ ∃ known, scheduler.task address = some known
  single : ∀ (i j : Nat) address, scheduler.timedTasksVector.contents[i]? = some (some address) →
    scheduler.timedTasksVector.contents[j]? = some (some address) → i = j
  lives : ∀ serial handle oneShot, .added serial handle oneShot ∈ scheduler.log → (.freed serial ∉ scheduler.log ↔
    ∃ address known, scheduler.task address = some known ∧ known.serial = serial ∧ 0 ≤ handle ∧
      scheduler.timedTasksVector.contents[handle.toNat]? = some (some address))

/-- A call is answered, uses no task that is freed, and leaves all in order. -/
def Wanted (scheduler : Scheduler) (event : Event) : Prop :=
  Enabled scheduler event → ∃ scheduler', perform scheduler event = some scheduler' ∧ Orderly scheduler'

/-- The step is answered by a dispatcher that has room for it. -/
def Roomy (scheduler : Scheduler) (event : Event) : Prop := Enabled scheduler event → HasRoom scheduler event

/-- After `xi_make_timed_task_container`, with a dispatcher that has no events. -/
def initial : Scheduler := {timedTasksVector := created Nat}

section Runs

variable {scheduler : Scheduler} {live : Live Nat}

theorem Good.orderly (good : Good scheduler live) : Orderly scheduler where
  ordered := good.told.ordered
  once := good.told.once
  pending := by
    intro address known there
    classical
    have unset : scheduler.other address ≠ true := fun set => good.away there set rfl
    rw [good.pending.count]
    simp only [inState_of there,or_iff_left unset]
  owned := by
    intro event member
    exact (good.pending.waiting_iff.mpr ⟨event,member,rfl⟩).imp_left fun waits => ⟨_,waits.choose_spec.1⟩
  called := by
    intro address member
    obtain ⟨known,there,_⟩ := (good.busy address).mp member
    exact ⟨known,there⟩
  slots := by
    intro address
    rw [← good.known,List.mem_iff_getElem?]
    constructor
    · rintro ⟨n,there⟩
      exact List.mem_map_of_mem (good.agrees.slot.mpr there)
    · intro member
      obtain ⟨handle,entry⟩ := handle_of member
      exact ⟨handle.toNat,((good.agrees.slots address handle).mp entry).2⟩
  single := by
    intro i j address here there
    have same := good.agrees.functional (good.agrees.slot.mpr here) (good.agrees.slot.mpr there)
    omega
  lives := by
    intro serial handle oneShot member
    constructor
    · intro unfreed
      obtain ⟨address,known,there,is,entry⟩ := (good.told.lives serial handle oneShot member).resolve_left unfreed
      exact ⟨address,known,there,is,(good.agrees.slots address handle).mp entry⟩
    · rintro ⟨address,known,there,rfl,_⟩
      exact (good.told.kept address known there).unfreed

theorem Good.perform (good : Good scheduler live) {event : Event} (enabled : Enabled scheduler event) (room : HasRoom scheduler event) :
    ∃ scheduler' live', perform scheduler event = some scheduler' ∧ Good scheduler' live' := by
  cases event with
  | add address event secondsFromNow repeatsForever =>
    obtain ⟨free,unset,new⟩ := enabled
    obtain ⟨answer,scheduler',live',added,good'⟩ := good.add free unset new secondsFromNow repeatsForever room
    exact ⟨scheduler',live',by rw [TimedTask.perform,added,Option.map_some],good'⟩
  | remove timedTaskHandle => exact good.remove timedTaskHandle
  | clock newStep => exact ⟨_,live,rfl,⟨good.agrees,good.short,good.pending,good.apart,good.known,good.nodup,good.busy⟩,good.told⟩
  | start => exact good.start
  | finish event => exact good.finish enabled room
  | executeOther event address seconds =>
    obtain ⟨free,unset,new⟩ := enabled
    obtain ⟨scheduler',done,good'⟩ := good.executeOther free unset new seconds
    exact ⟨scheduler',live,done,good'⟩
  | cancelOther address =>
    obtain ⟨scheduler',done,good'⟩ := good.cancelOther enabled
    exact ⟨scheduler',live,done,good'⟩
  | restartOther address newTime =>
    obtain ⟨scheduler',done,good'⟩ := good.restartOther enabled newTime
    exact ⟨scheduler',live,done,good'⟩

/-- A step that finds no room leaves a handle of a freed task, or fails. -/
theorem Good.not_wanted (good : Good scheduler live) {event : Event} (enabled : Enabled scheduler event) (full : ¬ HasRoom scheduler event) :
    ¬ Wanted scheduler event := by
  intro wanted
  obtain ⟨scheduler',done,orderly⟩ := wanted enabled
  cases event with
  | add address event secondsFromNow repeatsForever =>
    obtain ⟨free,unset,new⟩ := enabled
    obtain ⟨takes,full⟩ := Classical.not_imp.mp full
    obtain ⟨held,freed⟩ := good.add_full free unset new secondsFromNow repeatsForever takes full done
    obtain ⟨known,there⟩ := (orderly.slots address).mp held
    rw [freed] at there
    cases there
  | finish event =>
    obtain ⟨reschedules,full⟩ := Classical.not_imp.mp full
    rw [TimedTask.perform,good.finish_full enabled reschedules full] at done
    cases done
  | remove | clock | start | executeOther | cancelOther | restartOther => exact full trivial

theorem Good.wanted_iff (good : Good scheduler live) (event : Event) : Wanted scheduler event ↔ Roomy scheduler event := by
  constructor
  · intro wanted enabled
    by_contra full
    exact good.not_wanted enabled full wanted
  · intro roomy enabled
    obtain ⟨scheduler',live',done,good'⟩ := good.perform enabled (roomy enabled)
    exact ⟨scheduler',done,good'.orderly⟩

theorem initial_good : Good initial [] where
  agrees := created_agrees
  short := by decide
  pending := ⟨TimeEvents.create_wellFormed,by simp [initial],by simp [initial,InState]⟩
  apart := by simp [initial]
  known := by simp [initial]
  nodup := List.nodup_nil
  busy := by simp [initial,InState]
  told := ⟨by simp [initial],by simp [initial],by simp [initial],by simp [initial],by simp [initial],by simp [initial]⟩

/-- In every run of additions, removals and steps of the dispatcher, in any order, from any callback and among any other events, each task
goes the way from its addition to its end exactly if the dispatcher has room for each event that a task asks it for. -/
theorem each_orderly_iff (events : List Event) :
    (Orderly initial ∧ Runs.Each next Wanted initial events) ↔ Runs.Each next Roomy initial events := by
  refine (and_iff_right initial_good.orderly).trans ?_
  refine Runs.each_iff (I := fun scheduler => ∃ live, Good scheduler live) ?_ ?_ ⟨[],initial_good⟩
  · rintro scheduler event ⟨live,good⟩
    exact good.wanted_iff event
  · rintro scheduler event scheduler' ⟨live,good⟩ wanted stepped
    rw [next] at stepped
    split at stepped
    · rename_i enabled
      obtain ⟨scheduler'',live',done,good'⟩ := good.perform enabled ((good.wanted_iff event).mp wanted enabled)
      obtain rfl : scheduler'' = scheduler' := by simpa [done] using stepped
      exact ⟨live',good'⟩
    · cases stepped

end Runs

/-- 64 tasks that repeat. The first one is called, and before its callback returns an event of another part of the library takes its
place. -/
def crowd : List Event :=
  (List.range 64).map (fun n => .add n n 1 1) ++ [.clock 1,.start,.executeOther 100 100 5]

/-- The callback that returns then fails the assertion of the wrapper. -/
theorem crowd_stuck : ¬ ∀ events, Orderly initial ∧ Runs.Each next Wanted initial events := by
  intro claim
  have stuck : ((crowd.foldlM next initial).any fun scheduler =>
      101 ∉ scheduler.timeEvents.array ∧ (scheduler.finishTask 101).isNone) = true := by decide +kernel
  obtain ⟨scheduler,run,free,fails⟩ : ∃ scheduler, crowd.foldlM next initial = some scheduler ∧
      101 ∉ scheduler.timeEvents.array ∧ (scheduler.finishTask 101).isNone = true := by simpa [Option.any_eq_true] using stuck
  have wanted : Wanted scheduler (.finish 101) := Runs.Each.last (claim (crowd ++ [.finish 101])).2 run
  obtain ⟨scheduler',done,_⟩ := wanted free
  rw [perform,Option.isNone_iff_eq_none.mp fails] at done
  cases done

end XivelyClient.TimedTask
