import XivelyClient.TimedTask.Lifecycle

/-! The registration of a timed task with every way it can fail, and what a failure leaves behind. -/
namespace XivelyClient.TimedTask

open Handle EventDispatcher

/-- The answers of the allocator: for the task, for a longer vector of handles, for the time event and for a longer vector of
events. -/
structure Granted where
  task : Bool := true
  slot : Bool := true
  event : Bool := true
  queue : Bool := true
  deriving DecidableEq

/-- What a registration leaves: its answer, the container and the dispatcher, the lock of the container, and the task that the
error label freed. -/
structure Outcome where
  answer : Except XiState Int
  scheduler : Scheduler
  locked : Bool
  freed : Option Nat

namespace Scheduler

def executeInWith (granted : Granted) (scheduler : Scheduler) (event address : Nat) (seconds : Int) : Option (XiState × Scheduler) :=
  if granted.event then
    (scheduler.timeEvents.operate (.add event address (scheduler.currentStep + seconds) (some address) granted.queue)).map
      fun (state,_,timeEvents) => (state,{scheduler with timeEvents})
  else some (.outOfMemory,scheduler)

/-- `xi_add_timed_task`. The error label frees the task and does nothing else. -/
def addTimedTaskWith (granted : Granted) (scheduler : Scheduler) (address event : Nat) (secondsFromNow : Int)
    (repeatsForever : UInt8) : Option Outcome :=
  if granted.task then
    let task : Task := ⟨if repeatsForever ≠ 0 then secondsFromNow else 0,.scheduled,scheduler.serials⟩
    let scheduler := scheduler.allocTask address task.secondsRepeat
    (registerHandleForObject scheduler.timedTasksVector maxTimedEvent (some address) granted.slot).bind
      fun (state,timedTasksVector) =>
        let scheduler := {scheduler with timedTasksVector}
        if state ≠ .ok then some ⟨.error state,scheduler.freeTask address task,true,some address⟩
        else (findHandleForObject timedTasksVector (some address)).bind fun (state,taskHandle) =>
          if state ≠ .ok then some ⟨.error state,scheduler.freeTask address task,true,some address⟩
          -- the lock is given back here, before the dispatcher is asked
          else (scheduler.executeInWith granted event address secondsFromNow).map fun (state,scheduler) =>
            if state ≠ .ok then ⟨.error state,scheduler.freeTask address task,false,some address⟩
            else ⟨.ok taskHandle,scheduler.note (.added task.serial taskHandle (repeatsForever == 0)),false,none⟩
  else some ⟨.error .outOfMemory,scheduler,false,none⟩

/-- With memory for everything it is the registration of the scheduler's runs. -/
theorem addTimedTaskWith_granted (scheduler : Scheduler) (address event : Nat) (secondsFromNow : Int) (repeatsForever : UInt8) :
    (scheduler.addTimedTaskWith {} address event secondsFromNow repeatsForever).map (fun outcome => (outcome.answer,outcome.scheduler)) =
      scheduler.addTimedTask address event secondsFromNow repeatsForever := by
  rw [addTimedTaskWith,addTimedTask,if_pos rfl,Option.map_bind]
  refine congrArg _ (funext ?_)
  rintro ⟨state,timedTasksVector⟩
  by_cases registered : state = .ok
  · simp only [Function.comp_apply,registered,ne_eq,not_true_eq_false,if_false]
    rw [Option.map_bind]
    refine congrArg _ (funext ?_)
    rintro ⟨state,taskHandle⟩
    by_cases found : state = .ok
    · simp only [Function.comp_apply,found,not_true_eq_false,if_false,Option.map_map,executeInWith,executeIn,if_true]
      refine congrArg (Option.map · _) (funext ?_)
      rintro ⟨state,_,timeEvents⟩
      by_cases executed : state = .ok
      · simp [executed]
      · simp [executed]
    · simp [found]
  · simp [Function.comp,registered]

end Scheduler

/-- After an error all is as before, and the task that was freed is known to nobody. -/
def Atomic (before : Scheduler) (outcome : Outcome) : Prop :=
  ∀ state, outcome.answer = .error state →
    outcome.scheduler.timedTasksVector = before.timedTasksVector ∧ outcome.scheduler.timeEvents = before.timeEvents ∧
      outcome.locked = false ∧ ∀ address, outcome.freed = some address → some address ∉ outcome.scheduler.timedTasksVector.contents

/-- A slot is free, or one more fits below the limit and there is memory for it, or the address is there from before. -/
def Registrable (vector : XiVector (Option Nat)) (address : Nat) (slot : Bool) : Prop :=
  none ∈ vector.contents ∨ (vector.elemNo < maxTimedEvent.toInt ∧ (vector.Room slot ∨ some address ∈ vector.contents))

def Schedulable (events : TimeEvents) (granted : Granted) : Prop :=
  granted.event = true ∧ (events.array.length < events.capacity ∨ (granted.queue = true ∧ events.capacity * 2 < 2 ^ 7))

/-- The container and the dispatcher are well formed, and the memory that is given is not in use. -/
structure Ready (scheduler : Scheduler) (address event : Nat) : Prop where
  sound : scheduler.timedTasksVector.Sound
  wellFormed : scheduler.timeEvents.WellFormed
  unset : scheduler.timeEvents.ptrToPosition address = none
  new : event ∉ scheduler.timeEvents.array

theorem Good.ready {scheduler : Scheduler} {live : Live Nat} (good : Good scheduler live) {address event : Nat}
    (free : scheduler.task address = none) (unset : scheduler.other address = false) (new : event ∉ scheduler.timeEvents.array) : Ready scheduler address event where
  sound := good.agrees.sound
  wellFormed := good.pending.toWellFormed
  unset := by
    by_contra set
    exact idle_free free unset ((good.pending.awaited address).mp set)
  new := new

section Steps

variable {vector : XiVector (Option Nat)} {address : Nat} {slot : Bool}

theorem register_registrable (sound : vector.Sound) (registrable : Registrable vector address slot) :
    ∃ vector', registerHandleForObject vector maxTimedEvent (some address) slot = some (.ok,vector') ∧ vector'.Sound ∧
      some address ∈ vector'.contents := by
  rcases find_cases sound none with ⟨missing,full⟩ | ⟨n,found,empty,below⟩
  · obtain ⟨limit,room⟩ := registrable.resolve_left full
    by_cases grows : vector.Room slot
    · obtain ⟨vector',pushed,sound',contents,_⟩ := XiVector.push_done sound (some address) grows
      refine ⟨vector',?_,sound',?_⟩
      · rw [registerHandleForObject,missing,Option.bind_some,if_pos (by omega),if_neg (by omega),pushed,Option.map_some]
      · rw [contents]
        exact List.mem_append_right _ (List.mem_singleton_self _)
    · refine ⟨vector,?_,sound,room.resolve_left grows⟩
      rw [registerHandleForObject,missing,Option.bind_some,if_pos (by omega),if_neg (by omega),
        XiVector.push_refused sound (some address) grows,Option.map_some]
  · obtain ⟨vector',written,sound',contents,_⟩ := write_slot sound below (some address)
    refine ⟨vector',?_,sound',?_⟩
    · rw [registerHandleForObject,found,Option.bind_some,if_neg (by omega),written,Option.map_some]
    · rw [contents]
      exact List.mem_set (List.getElem?_eq_some_iff.mp empty).1 (some address)

theorem register_unregistrable (sound : vector.Sound) (full : ¬ Registrable vector address slot) :
    registerHandleForObject vector maxTimedEvent (some address) slot = some (.noMoreResourceAvailable,vector) ∨
      (registerHandleForObject vector maxTimedEvent (some address) slot = some (.ok,vector) ∧ some address ∉ vector.contents) := by
  obtain ⟨taken,rest⟩ := not_or.mp full
  rcases find_cases sound none with ⟨missing,_⟩ | ⟨n,_,empty,_⟩
  · by_cases limit : maxTimedEvent.toInt ≤ vector.elemNo
    · left
      rw [registerHandleForObject,missing,Option.bind_some,if_pos (by omega),if_pos limit]
    · have tight := fun either => rest ⟨by omega,either⟩
      obtain ⟨narrow,absent⟩ := not_or.mp tight
      refine .inr ⟨?_,absent⟩
      rw [registerHandleForObject,missing,Option.bind_some,if_pos (by omega),if_neg limit,
        XiVector.push_refused sound (some address) narrow,Option.map_some]
  · exact absurd (List.mem_of_getElem? empty) taken

theorem find_of_mem (sound : vector.Sound) (member : some address ∈ vector.contents) :
    ∃ handle, findHandleForObject vector (some address) = some (.ok,handle) := by
  rcases find_cases sound (some address) with ⟨_,absent⟩ | ⟨n,found,_,_⟩
  · exact absurd member absent
  · refine ⟨n,?_⟩
    rw [findHandleForObject,found,Option.map_some,if_neg (by omega)]

theorem find_of_not_mem (sound : vector.Sound) (absent : some address ∉ vector.contents) :
    findHandleForObject vector (some address) = some (.elementNotFound,invalidContextHandle) := by
  rcases find_cases sound (some address) with ⟨missing,_⟩ | ⟨n,_,entry,_⟩
  · rw [findHandleForObject,missing]
    rfl
  · exact absurd (List.mem_of_getElem? entry) absent

theorem executeInWith_done {scheduler : Scheduler} {event : Nat} (ready : Ready scheduler address event) (granted : Granted) (seconds : Int) :
    ∃ state scheduler', scheduler.executeInWith granted event address seconds = some (state,scheduler') ∧
      scheduler'.timedTasksVector = scheduler.timedTasksVector ∧
      (state = .ok ↔ Schedulable scheduler.timeEvents granted) := by
  rw [Scheduler.executeInWith]
  split
  · rename_i memory
    obtain ⟨state,removed,after,added,_,_⟩ := @TimeEvents.add_operated _ event address (scheduler.currentStep + seconds) granted.queue
      (some address) ready.wellFormed ready.new (by rintro set ⟨⟩; exact ready.unset)
    rw [added]
    refine ⟨state,_,rfl,rfl,(TimeEvents.add_state added).trans ?_⟩
    simp [Schedulable,memory]
  · rename_i lacks
    exact ⟨.outOfMemory,scheduler,rfl,rfl,iff_of_false (by simp) fun both => lacks both.1⟩

end Steps

theorem not_atomic_of_locked {before : Scheduler} {outcome : Outcome} {state : XiState} (error : outcome.answer = .error state)
    (locked : outcome.locked = true) : ¬ Atomic before outcome := by
  intro atomic
  have free := (atomic state error).2.2.1
  rw [locked] at free
  cases free

theorem Ready.allocTask {scheduler : Scheduler} {event : Nat} (ready : Ready scheduler address event) (sound : vector.Sound)
    (repeats : Int) : Ready {scheduler.allocTask address repeats with timedTasksVector := vector} address event := by
  have clear : Function.update scheduler.timeEvents.ptrToPosition address none = scheduler.timeEvents.ptrToPosition := by
    rw [Function.update_eq_self_iff,ready.unset]
  have same : (scheduler.allocTask address repeats).timeEvents = scheduler.timeEvents := by
    change {scheduler.timeEvents with ptrToPosition := Function.update scheduler.timeEvents.ptrToPosition address none} = _
    rw [clear]
  exact ⟨sound,same ▸ ready.wellFormed,Function.update_self _ _ _,ready.new⟩

/-- A registration undoes what it has done exactly where there is nothing to undo: its first allocation fails, or nothing does. -/
theorem addTimedTask_atomic_iff (granted : Granted) (scheduler : Scheduler) (address event : Nat) (secondsFromNow : Int)
    (repeatsForever : UInt8) (ready : Ready scheduler address event) :
    ∃ outcome, scheduler.addTimedTaskWith granted address event secondsFromNow repeatsForever = some outcome ∧
      (Atomic scheduler outcome ↔ granted.task = false ∨
        (Registrable scheduler.timedTasksVector address granted.slot ∧ Schedulable scheduler.timeEvents granted)) := by
  rw [Scheduler.addTimedTaskWith]
  by_cases memory : granted.task = true
  · have sound := ready.sound
    simp only [memory,Bool.true_eq_false,false_or]
    change ∃ outcome, (registerHandleForObject scheduler.timedTasksVector maxTimedEvent (some address) granted.slot).bind _ = some outcome ∧ _
    by_cases registrable : Registrable scheduler.timedTasksVector address granted.slot
    · obtain ⟨vector,registered,sound',member⟩ := register_registrable sound registrable
      obtain ⟨handle,found⟩ := find_of_mem sound' member
      rw [registered,Option.bind_some]
      simp only [ne_eq,not_true_eq_false,if_false,found,Option.bind_some]
      have ready' := ready.allocTask sound' (if repeatsForever ≠ 0 then secondsFromNow else 0)
      obtain ⟨state,scheduler',executed,kept,scheduled⟩ := executeInWith_done ready' granted secondsFromNow
      refine ⟨_,congrArg (Option.map _) executed,?_⟩
      have scheduled : state = .ok ↔ Schedulable scheduler.timeEvents granted := scheduled
      by_cases ok : state = .ok
      · simp only [ok,not_true_eq_false,if_false]
        refine iff_of_true ?_ ⟨registrable,scheduled.mp ok⟩
        intro state error
        cases error
      · simp only [ok,not_false_eq_true,if_true]
        refine iff_of_false ?_ fun both => ok (scheduled.mpr both.2)
        intro atomic
        have gone := (atomic state rfl).2.2.2 address rfl
        exact gone (by simpa [Scheduler.freeTask,Scheduler.setTask,Scheduler.note,kept] using member)
    · have refused : ¬ (Registrable scheduler.timedTasksVector address granted.slot ∧ Schedulable scheduler.timeEvents granted) :=
        fun both => registrable both.1
      rcases register_unregistrable sound registrable with full | ⟨ignored,absent⟩
      · rw [full]
        exact ⟨_,rfl,iff_of_false (not_atomic_of_locked rfl rfl) refused⟩
      · rw [ignored,Option.bind_some]
        simp only [ne_eq,not_true_eq_false,if_false,find_of_not_mem sound absent,Option.bind_some]
        exact ⟨_,rfl,iff_of_false (not_atomic_of_locked rfl rfl) refused⟩
  · rw [if_neg memory]
    refine ⟨_,rfl,iff_of_true ?_ (.inl (eq_false_of_ne_true memory))⟩
    intro state error
    exact ⟨rfl,rfl,rfl,fun address freed => absurd freed (by simp)⟩

theorem initial_ready (address event : Nat) : Ready initial address event :=
  initial_good.ready rfl rfl (by simp [initial])

/-- Without memory for the event the freed task keeps its handle, and the error is not atomic. -/
theorem addTimedTask_atomic_refused :
    ∃ outcome, initial.addTimedTaskWith {event := false} 7 1 5 0 = some outcome ∧
      (Atomic initial outcome ↔ ({event := false} : Granted).task = false ∨
        (Registrable initial.timedTasksVector 7 true ∧ Schedulable initial.timeEvents {event := false})) :=
  addTimedTask_atomic_iff {event := false} initial 7 1 5 0 (initial_ready 7 1)

theorem addTimedTask_leaves_task : ¬ ∀ outcome, initial.addTimedTaskWith {event := false} 7 1 5 0 = some outcome →
    Atomic initial outcome := by
  intro claim
  have atomic := claim _ rfl
  exact (atomic .outOfMemory rfl).2.2.2 7 rfl (by decide)

end XivelyClient.TimedTask
