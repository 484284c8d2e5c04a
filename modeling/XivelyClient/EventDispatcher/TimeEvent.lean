import XivelyClient.State
import Mathlib.Logic.Function.Basic

/-! The container of the time events (`xi_time_event.c` over `xi_vector.c`). Events and handles are known by their addresses; a
handle points to the position field of an event, so it is set to that event. A failed assertion has no result. -/
namespace XivelyClient.EventDispatcher

/-- `xi_time_event_t` -/
structure TimeEvent where
  eventHandle : Nat
  timeOfExecution : Int
  position : Int := 0
  timeEventHandle : Option Nat := none
  deriving DecidableEq, Repr

/-- The vector of the container, the events it points to and the handles of the callers. -/
structure TimeEvents where
  array : List Nat := []
  capacity : Nat := 2
  event : Nat → TimeEvent := fun _ => {eventHandle := 0,timeOfExecution := 0}
  ptrToPosition : Nat → Option Nat := fun _ => none

inductive Direction
  | down | up
  deriving DecidableEq, Repr

namespace TimeEvents

def elemNo (events : TimeEvents) : Int := events.array.length

def time (events : TimeEvents) (event : Nat) : Int := (events.event event).timeOfExecution

def setPosition (events : TimeEvents) (event : Nat) (position : Int) : TimeEvents :=
  {events with event := Function.update events.event event {events.event event with position := position}}

def setTime (events : TimeEvents) (event : Nat) (time : Int) : TimeEvents :=
  {events with event := Function.update events.event event {events.event event with timeOfExecution := time}}

/-- `xi_vector_push`. The index type has eight bits, so a capacity of 128 cannot be allocated. -/
def vectorPush (events : TimeEvents) (event : Nat) (alloc : Bool) : Option TimeEvents :=
  if events.array.length + 1 > events.capacity then
    if alloc ∧ events.capacity * 2 < 2 ^ 7 then
      some {events with array := events.array ++ [event],capacity := events.capacity * 2}
    else none
  else some {events with array := events.array ++ [event]}

/-- `xi_vector_del` of the last element. -/
def vectorDelLast (events : TimeEvents) : TimeEvents := {events with array := events.array.dropLast}

def swapTimeEvents (events : TimeEvents) (lhs rhs : Int) : Option TimeEvents :=
  if lhs < events.elemNo ∧ rhs < events.elemNo ∧ 0 ≤ lhs ∧ 0 ≤ rhs then
    match events.array[lhs.toNat]?,events.array[rhs.toNat]? with
    | some lhsEvent,some rhsEvent =>
      some (({events with array := (events.array.set lhs.toNat rhsEvent).set rhs.toNat lhsEvent}.setPosition lhsEvent rhs).setPosition
        rhsEvent lhs)
    | _,_ => none
  else none

/-- The event to bubble stands on the wrong side of the one next to it. -/
def misplaced (events : TimeEvents) (dir : Direction) (toBubble toCmp : Nat) : Bool :=
  match dir with
  | .down => events.time toBubble < events.time toCmp
  | .up => events.time toBubble > events.time toCmp

/-- The loop of `xi_time_event_bubble_core`, with the number of places that are left in its direction. -/
def bubble (dir : Direction) : Nat → Nat → TimeEvents → Option (Int × TimeEvents)
  | 0,index,events => (events.array[index]?).map fun event => ((events.event event).position,events)
  | steps + 1,index,events =>
    let next := match dir with
      | .down => index - 1
      | .up => index + 1
    match events.array[next]?,events.array[index]? with
    | some toCmp,some toBubble =>
      if events.misplaced dir toBubble toCmp then
        (events.swapTimeEvents (events.event toCmp).position (events.event toBubble).position).bind (bubble dir steps next)
      else some ((events.event toBubble).position,events)
    | _,_ => none

def bubbleCore (events : TimeEvents) (index : Int) (dir : Direction) : Option (Int × TimeEvents) :=
  if 0 ≤ index ∧ index < events.elemNo then
    bubble dir (match dir with
      | .down => index.toNat
      | .up => events.array.length - 1 - index.toNat) index.toNat events
  else none

/-- The loop of `xi_time_event_move_to_the_end`. -/
def moveSteps : Nat → Nat → TimeEvents → Option TimeEvents
  | 0,_,events => some events
  | steps + 1,index,events => (events.swapTimeEvents index (index + 1 : Nat)).bind (moveSteps steps (index + 1))

def moveToTheEnd (events : TimeEvents) (index : Int) : Option TimeEvents :=
  if 0 ≤ index ∧ index < events.elemNo then
    moveSteps (events.array.length - 1 - index.toNat) index.toNat events
  else none

/-- `xi_insert_time_event`; it has no element when the vector cannot grow. -/
def insertTimeEvent (events : TimeEvents) (event : Nat) (alloc : Bool) : Option (Option Nat × TimeEvents) :=
  match events.vectorPush event alloc with
  | none => some (none,events)
  | some pushed =>
    ((pushed.setPosition event (pushed.elemNo - 1)).bubbleCore (pushed.elemNo - 1) .down).bind fun (index,events) =>
      (events.array[index.toNat]?).map fun added => (some added,events)

def disposeTimeEvent (events : TimeEvents) (event : Nat) : TimeEvents :=
  match (events.event event).timeEventHandle with
  | some handle => {events with ptrToPosition := Function.update events.ptrToPosition handle none}
  | none => events

/-- `xi_time_event_add` of an event that its owner has made. -/
def add (events : TimeEvents) (event : Nat) (handle : Option Nat) (alloc : Bool) : Option (XiState × TimeEvents) :=
  if (handle.bind events.ptrToPosition).isNone then
    (events.insertTimeEvent event alloc).bind fun (added,events) =>
      match added with
      | none => some (.outOfMemory,events)
      | some added =>
        if added = event then
          match handle with
          | some handle => some (.ok,{events with
              ptrToPosition := Function.update events.ptrToPosition handle (some added)
              event := Function.update events.event added {events.event added with timeEventHandle := some handle}})
          | none => some (.ok,events)
        else none
  else none

def peekTop (events : TimeEvents) : Option Nat := events.array.head?

def getTop (events : TimeEvents) : Option (Option Nat × TimeEvents) :=
  match events.array with
  | [] => some (none,events)
  | topOne :: _ =>
    (if 1 < events.array.length then events.moveToTheEnd 0 else some events).map fun events =>
      (some topOne,events.vectorDelLast.disposeTimeEvent topOne)

def restart (events : TimeEvents) (handle : Nat) (newTime : Int) : Option (XiState × TimeEvents) :=
  (events.ptrToPosition handle).bind fun pointed =>
    let index := (events.event pointed).position
    if events.elemNo ≤ index ∨ index < 0 then some (.elementNotFound,events)
    else
      (events.array[index.toNat]?).bind fun event =>
        if (events.event event).timeEventHandle = some handle then
          ((events.setTime event newTime).bubbleCore index (if newTime < events.time event then .down else .up)).map
            fun (_,events) => (.ok,events)
        else none

def cancel (events : TimeEvents) (handle : Nat) : Option (XiState × Option Nat × TimeEvents) :=
  (events.ptrToPosition handle).bind fun pointed =>
    let index := (events.event pointed).position
    if events.elemNo ≤ index ∨ index < 0 then some (.elementNotFound,none,events)
    else
      (if index < events.elemNo - 1 then events.moveToTheEnd index else some events).bind fun events =>
        (events.array.getLast?).map fun cancelled => (.ok,some cancelled,events.vectorDelLast.disposeTimeEvent cancelled)

/-- `xi_vector_create` -/
def create : TimeEvents := {}

end TimeEvents

end XivelyClient.EventDispatcher
