import XivelyClient.EventDispatcher.BackLinks

/-! The part of the event dispatcher that runs handlers (`xi_event_dispatcher.c`). Time events and the elements of the queue are
known by the number of their allocation. A handler is known by what it asks of the dispatcher. -/
namespace XivelyClient.EventDispatcher

/-- What a handler may ask for. -/
inductive Call
  | executeIn (handle : Nat) (timeDiff : Int) (retTimeEventHandle : Option Nat) (alloc allocVector : Bool)
  | cancel (timeEventHandle : Nat)
  | restart (timeEventHandle : Nat) (newTime : Int)
  | execute (handle : Nat) (alloc : Bool)
  | continueWhenEmpty (handle : Option Nat)
  deriving DecidableEq, Repr

/-- What happened in the step. An event that ran comes with its time. -/
inductive Happening
  | added (event : Nat)
  | cancelled (event : Nat)
  | ran (event : Nat) (time : Int)
  | enqueued (element handle : Nat)
  | called (element handle : Nat)
  | emptied (handle : Nat)
  deriving DecidableEq, Repr

/-- `xi_evtd_instance_t` -/
structure Dispatcher where
  currentStep : Int := 0
  timeEvents : TimeEvents := {}
  callQueue : List (Nat × Nat) := []
  onEmpty : Option Nat := none
  allocated : Nat := 0
  log : List Happening := []

namespace Dispatcher

section Log

variable (log : List Happening)

def added : List Nat := log.filterMap fun
  | .added event => some event
  | _ => none

def cancelled : List Nat := log.filterMap fun
  | .cancelled event => some event
  | _ => none

def ran : List (Nat × Int) := log.filterMap fun
  | .ran event time => some (event,time)
  | _ => none

def enqueued : List (Nat × Nat) := log.filterMap fun
  | .enqueued element handle => some (element,handle)
  | _ => none

def called : List (Nat × Nat) := log.filterMap fun
  | .called element handle => some (element,handle)
  | _ => none

end Log

def operate (dispatcher : Dispatcher) (operation : TimeEvents.Operation) (happened : XiState → Option Nat → List Happening) :
    Option Dispatcher :=
  (dispatcher.timeEvents.operate operation).map fun (state,removed,timeEvents) =>
    {dispatcher with timeEvents := timeEvents,log := dispatcher.log ++ happened state removed}

/-- `xi_evtd_execute_in` -/
def executeIn (dispatcher : Dispatcher) (handle : Nat) (timeDiff : Int) (retTimeEventHandle : Option Nat)
    (alloc allocVector : Bool) : Option Dispatcher :=
  if alloc then
    operate {dispatcher with allocated := dispatcher.allocated + 1}
      (.add dispatcher.allocated handle (dispatcher.currentStep + timeDiff) retTimeEventHandle allocVector)
      fun state _ => if state = .ok then [.added dispatcher.allocated] else []
  else some dispatcher

def cancel (dispatcher : Dispatcher) (timeEventHandle : Nat) : Option Dispatcher :=
  dispatcher.operate (.cancel timeEventHandle) fun _ timeEvent => timeEvent.toList.map Happening.cancelled

def restart (dispatcher : Dispatcher) (timeEventHandle : Nat) (newTime : Int) : Option Dispatcher :=
  dispatcher.operate (.restart timeEventHandle (dispatcher.currentStep + newTime)) fun _ _ => []

/-- `xi_evtd_execute` -/
def execute (dispatcher : Dispatcher) (handle : Nat) (alloc : Bool) : Dispatcher :=
  if alloc then
    {dispatcher with
      callQueue := dispatcher.callQueue ++ [(dispatcher.allocated,handle)]
      allocated := dispatcher.allocated + 1
      log := dispatcher.log ++ [.enqueued dispatcher.allocated handle]}
  else dispatcher

def continueWhenEmpty (dispatcher : Dispatcher) (handle : Option Nat) : Dispatcher := {dispatcher with onEmpty := handle}

def call (dispatcher : Dispatcher) : Call → Option Dispatcher
  | .executeIn handle timeDiff retTimeEventHandle alloc allocVector =>
    dispatcher.executeIn handle timeDiff retTimeEventHandle alloc allocVector
  | .cancel timeEventHandle => dispatcher.cancel timeEventHandle
  | .restart timeEventHandle newTime => dispatcher.restart timeEventHandle newTime
  | .execute handle alloc => some (dispatcher.execute handle alloc)
  | .continueWhenEmpty handle => some (dispatcher.continueWhenEmpty handle)

/-- `xi_evtd_execute_handle` of a handler that makes these calls -/
def executeHandle (calls : List Call) (dispatcher : Dispatcher) : Option Dispatcher := calls.foldlM call dispatcher

/-- The first time event, if its time has come. -/
def due (dispatcher : Dispatcher) : Option Nat :=
  dispatcher.timeEvents.peekTop.filter fun tmp => dispatcher.timeEvents.time tmp ≤ dispatcher.currentStep

def getTop (dispatcher : Dispatcher) : Option Dispatcher :=
  dispatcher.operate .getTop fun _ tmp => tmp.toList.map fun tmp => .ran tmp (dispatcher.timeEvents.time tmp)

/-- The first loop of `xi_evtd_step`. Each handler that it runs takes the next of the behaviours; a run that needs more of them
has no result. -/
def timedLoop : List (List Call) → Dispatcher → Option (List (List Call) × Dispatcher)
  | [],dispatcher => if dispatcher.due.isNone then some ([],dispatcher) else none
  | calls :: behaviours,dispatcher =>
    if dispatcher.due.isNone then some (calls :: behaviours,dispatcher)
    else dispatcher.getTop.bind fun dispatcher => (dispatcher.executeHandle calls).bind (timedLoop behaviours)

/-- `xi_evtd_single_step` up to the handler -/
def popCall (dispatcher : Dispatcher) (newStep : Int) (element handle : Nat) (queue : List (Nat × Nat)) : Dispatcher :=
  {dispatcher with currentStep := newStep,callQueue := queue,log := dispatcher.log ++ [.called element handle]}

def callLoop (newStep : Int) : List (List Call) → Dispatcher → Option (List (List Call) × Dispatcher)
  | [],dispatcher => if dispatcher.callQueue.isEmpty then some ([],dispatcher) else none
  | calls :: behaviours,dispatcher =>
    match dispatcher.callQueue with
    | [] => some (calls :: behaviours,dispatcher)
    | (element,handle) :: queue =>
      ((dispatcher.popCall newStep element handle queue).executeHandle calls).bind (callLoop newStep behaviours)

/-- The handler for an empty container is called once. -/
def whenEmpty (behaviours : List (List Call)) (dispatcher : Dispatcher) : Option Dispatcher :=
  match dispatcher.timeEvents.array,dispatcher.onEmpty with
  | [],some handle => behaviours.head?.bind fun calls =>
    (executeHandle calls {dispatcher with log := dispatcher.log ++ [.emptied handle]}).map fun dispatcher =>
      dispatcher.continueWhenEmpty none
  | _,_ => some dispatcher

def start (dispatcher : Dispatcher) (newStep : Int) : Dispatcher := {dispatcher with currentStep := newStep,log := []}

def step (dispatcher : Dispatcher) (newStep : Int) (behaviours : List (List Call)) : Option Dispatcher :=
  (timedLoop behaviours (dispatcher.start newStep)).bind fun (behaviours,dispatcher) =>
    (callLoop newStep behaviours dispatcher).bind fun (behaviours,dispatcher) => dispatcher.whenEmpty behaviours

end Dispatcher

end XivelyClient.EventDispatcher
