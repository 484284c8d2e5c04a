import XivelyClient.Datastructures.Handle
import XivelyClient.EventDispatcher.Operations

/-! Timed tasks (`xi_timed_task.c`) over the registry of handles and the time events of their dispatcher, which serves the rest of the
library as well. Tasks and events are known by their addresses, and memory that was freed may be given again. What uses a task that is
freed, or fails an assertion, has no result. -/
namespace XivelyClient.TimedTask

open Handle EventDispatcher

def maxTimedEvent : Int32 := 64

inductive TaskState
  | scheduled | running | deletable
  deriving DecidableEq, Repr

/-- `xi_timed_task_data_t`, without what the callback is called with. `delayed_event` is known by the address of the task. Each task has
a number of its own in `serial`. -/
structure Task where
  secondsRepeat : Int
  state : TaskState
  serial : Nat

/-- What happens to the task of a number. A removal happens before what it frees. -/
inductive Happening
  | added (serial : Nat) (handle : Int) (oneShot : Bool)
  | started (serial : Nat)
  | removed (serial : Nat)
  | freed (serial : Nat)
  deriving DecidableEq, Repr

def Happening.serial : Happening → Nat
  | .added serial _ _ | .started serial | .removed serial | .freed serial => serial

/-- `other` are the handles of the time events that are no task's, and `running` the tasks whose callbacks have not returned, the
innermost first. -/
structure Scheduler where
  timedTasksVector : XiVector (Option Nat)
  timeEvents : TimeEvents := {}
  other : Nat → Bool := fun _ => false
  currentStep : Int := 0
  task : Nat → Option Task := fun _ => none
  running : List Nat := []
  serials : Nat := 0
  log : List Happening := []

namespace Scheduler

def note (happening : Happening) (scheduler : Scheduler) : Scheduler := {scheduler with log := scheduler.log ++ [happening]}

def setTask (address : Nat) (task : Option Task) (scheduler : Scheduler) : Scheduler :=
  {scheduler with task := Function.update scheduler.task address task}

def freeTask (address : Nat) (task : Task) (scheduler : Scheduler) : Scheduler := (scheduler.setTask address none).note (.freed task.serial)

/-- `xi_evtd_execute_in` of the wrapper, with memory for the event -/
def executeIn (scheduler : Scheduler) (event address : Nat) (seconds : Int) : Option (XiState × Scheduler) :=
  (scheduler.timeEvents.operate (.add event address (scheduler.currentStep + seconds) (some address) true)).map fun (state,_,timeEvents) =>
    (state,{scheduler with timeEvents})

def cancel (scheduler : Scheduler) (address : Nat) : Option (XiState × Scheduler) :=
  (scheduler.timeEvents.operate (.cancel address)).map fun (state,_,timeEvents) => (state,{scheduler with timeEvents})

/-- `XI_ALLOC`, which clears the memory. -/
def allocTask (scheduler : Scheduler) (address : Nat) (secondsRepeat : Int) : Scheduler :=
  {scheduler.setTask address (some ⟨secondsRepeat,.scheduled,scheduler.serials⟩) with
    timeEvents := {scheduler.timeEvents with ptrToPosition := Function.update scheduler.timeEvents.ptrToPosition address none}
    serials := scheduler.serials + 1}

/-- `xi_add_timed_task`, with memory for the task at `address` and for its event. -/
def addTimedTask (scheduler : Scheduler) (address event : Nat) (secondsFromNow : Int) (repeatsForever : UInt8) :
    Option (Except XiState Int × Scheduler) :=
  let task : Task := ⟨if repeatsForever ≠ 0 then secondsFromNow else 0,.scheduled,scheduler.serials⟩
  let scheduler := scheduler.allocTask address task.secondsRepeat
  (registerHandleForObject scheduler.timedTasksVector maxTimedEvent (some address) true).bind fun (state,timedTasksVector) =>
    let scheduler := {scheduler with timedTasksVector}
    if state ≠ .ok then some (.error state,scheduler.freeTask address task)
    else (findHandleForObject timedTasksVector (some address)).bind fun (state,taskHandle) =>
      if state ≠ .ok then some (.error state,scheduler.freeTask address task)
      else (scheduler.executeIn event address secondsFromNow).map fun (state,scheduler) =>
        if state ≠ .ok then (.error state,scheduler.freeTask address task)
        else (.ok taskHandle,scheduler.note (.added task.serial taskHandle (repeatsForever == 0)))

/-- The end of a task: its handle is deleted and its memory is freed. -/
def endTask (scheduler : Scheduler) (address : Nat) (task : Task) : Option Scheduler :=
  (deleteHandleForObject scheduler.timedTasksVector (some address)).bind fun (state,timedTasksVector) =>
    if state ≠ .ok then none else some ({scheduler with timedTasksVector}.freeTask address task)

def removeTimedTask (scheduler : Scheduler) (timedTaskHandle : Int32) : Option Scheduler :=
  (objectForHandle scheduler.timedTasksVector timedTaskHandle).bind fun
    | none => some scheduler
    | some address => (scheduler.task address).bind fun task =>
      let scheduler := scheduler.note (.removed task.serial)
      match task.state with
      | .scheduled => (scheduler.cancel address).bind fun (state,scheduler) =>
        if state ≠ .ok then none else scheduler.endTask address task
      | .running => some (scheduler.setTask address (some {task with state := .deletable}))
      | .deletable => some scheduler

def due (scheduler : Scheduler) : Option Nat :=
  scheduler.timeEvents.peekTop.filter fun event => scheduler.timeEvents.time event ≤ scheduler.currentStep

/-- One turn of the loop of `xi_evtd_step`, with `xi_timed_task_callback_wrapper` up to the callback. The handler of another event is
what happens next. -/
def startTask (scheduler : Scheduler) : Option Scheduler :=
  match scheduler.due with
  | none => some scheduler
  | some event => (scheduler.timeEvents.operate .getTop).bind fun (_,_,timeEvents) =>
    let address := (scheduler.timeEvents.event event).eventHandle
    let scheduler := {scheduler with timeEvents}
    if scheduler.other address then some {scheduler with other := Function.update scheduler.other address false}
    else (findHandleForObject scheduler.timedTasksVector (some address)).bind fun (state,_) =>
      if state ≠ .ok then some scheduler
      else (scheduler.task address).map fun task =>
        {(scheduler.setTask address (some {task with state := .running})).note (.started task.serial) with
          running := address :: scheduler.running}

/-- `xi_timed_task_callback_wrapper` after the callback, with memory for the next event. -/
def finishTask (scheduler : Scheduler) (event : Nat) : Option Scheduler :=
  match scheduler.running with
  | [] => some scheduler
  | address :: running => (scheduler.task address).bind fun task =>
    let scheduler := {scheduler with running}
    if task.secondsRepeat = 0 ∨ task.state = .deletable then scheduler.endTask address task
    else (scheduler.executeIn event address task.secondsRepeat).bind fun (state,scheduler) =>
      if state ≠ .ok then none else some (scheduler.setTask address (some {task with state := .scheduled}))

def executeOther (scheduler : Scheduler) (event address : Nat) (seconds : Int) : Option Scheduler :=
  (scheduler.executeIn event address seconds).map fun (state,scheduler) =>
    if state = .ok then {scheduler with other := Function.update scheduler.other address true} else scheduler

def cancelOther (scheduler : Scheduler) (address : Nat) : Option Scheduler :=
  (scheduler.cancel address).map fun (_,scheduler) => {scheduler with other := Function.update scheduler.other address false}

def restartOther (scheduler : Scheduler) (address : Nat) (newTime : Int) : Option Scheduler :=
  (scheduler.timeEvents.operate (.restart address newTime)).map fun (_,_,timeEvents) => {scheduler with timeEvents}

end Scheduler

/-- What may happen, at any time and from any callback. The callbacks return in the reverse order of their calls. -/
inductive Event
  | add (address event : Nat) (secondsFromNow : Int) (repeatsForever : UInt8)
  | remove (timedTaskHandle : Int32)
  | clock (newStep : Int)
  | start
  | finish (event : Nat)
  | executeOther (event address : Nat) (seconds : Int)
  | cancelOther (address : Nat)
  | restartOther (address : Nat) (newTime : Int)

/-- Memory that is in use is not given again. -/
def Enabled (scheduler : Scheduler) : Event → Prop
  | .add address event _ _ | .executeOther event address _ =>
    scheduler.task address = none ∧ scheduler.other address = false ∧ event ∉ scheduler.timeEvents.array
  | .finish event => event ∉ scheduler.timeEvents.array
  | .cancelOther address | .restartOther address _ => scheduler.other address = true
  | _ => True

def perform (scheduler : Scheduler) : Event → Option Scheduler
  | .add address event secondsFromNow repeatsForever => (scheduler.addTimedTask address event secondsFromNow repeatsForever).map Prod.snd
  | .remove timedTaskHandle => scheduler.removeTimedTask timedTaskHandle
  | .clock newStep => some {scheduler with currentStep := newStep}
  | .start => scheduler.startTask
  | .finish event => scheduler.finishTask event
  | .executeOther event address seconds => scheduler.executeOther event address seconds
  | .cancelOther address => scheduler.cancelOther address
  | .restartOther address newTime => scheduler.restartOther address newTime

end XivelyClient.TimedTask
