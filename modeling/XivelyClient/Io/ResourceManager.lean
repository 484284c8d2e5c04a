import XivelyClient.Mqtt.DataHelpers
import XivelyClient.Lib.Runs

/-! The resource manager (`xi_resource_manager.c`): the open, read and close coroutines, which the dispatcher resumes as long as their
descriptor is registered. `none` is an abort by an assertion, or a write outside of a buffer. -/
namespace XivelyClient.ResourceManager

/-- What a function of the file system answers, and what it puts out. `none` is a `NULL` buffer. -/
structure Answer where
  state : XiState
  buffer : Option (List UInt8) := none
  size : Nat := 0
  handle : Int := 0

/-- One invocation of a coroutine: the answers that it gets, and whether there is memory. -/
structure Turn where
  answer : Answer
  openAnswer : Answer := ⟨.ok,none,0,0⟩
  register : Bool := true
  registerOpen : Bool := true
  desc : Bool := true
  descBuffer : Bool := true
  grow : Bool := true
  execute : Bool := true

/-- Where a coroutine has yielded. -/
inductive Cs
  | start | stat | open | read | close
  deriving DecidableEq, Repr

/-- `xi_resource_manager_context_t`. The callback is known by its state, and is `none` when disposed of. -/
structure Context where
  dataBuffer : Option DataDesc := none
  callback : Option XiState := none
  resourceSize : Nat := 0
  resourceHandle : Int := 0
  dataOffset : Nat := 0
  cs : Cs := .start

inductive Handle
  | coroutine
  | callback (state : XiState)
  deriving DecidableEq, Repr

/-- The context beside the dispatcher: its files, its queue, what the callback was run with, and what the file system has answered. -/
structure Manager where
  context : Context
  registered : List Int := []
  queue : List Handle := []
  ran : List XiState := []
  answers : List XiState := []

/-- How a part of a coroutine ends: it waits, it goes to the error label, or it goes on. -/
inductive Yield
  | waiting (manager : Manager)
  | failed (state : XiState) (manager : Manager)
  | done (manager : Manager)

/-- `xi_evtd_register_file_fd`, which asserts that the descriptor is new -/
def registerFileFd (fd : Int) (alloc : Bool) (manager : Manager) : Option (Bool × Manager) :=
  if fd ∈ manager.registered then none
  else if alloc then some (true,{manager with registered := manager.registered ++ [fd]})
  else some (false,manager)

/-- The order of the others is not kept in the source. -/
def unregisterFileFd (fd : Int) (manager : Manager) : Manager := {manager with registered := manager.registered.erase fd}

/-- What the invocation of a function leaves to do: the state may be rewritten, or it goes to the error label. -/
abbrev Post := XiState → Manager → Option (Bool × XiState × Manager)

/-- The rest of `XI_RESOURCE_MANAGER_YIELD_FROM` behind the block. -/
def afterCall (cs : Cs) : Bool × XiState × Manager → Yield
  | (jumps,state,manager) =>
    if jumps then .failed state manager
    else if state = .wantRead then .waiting {manager with context.cs := cs}
    else if state = .ok then .done (unregisterFileFd manager.context.resourceHandle manager)
    else .failed state (unregisterFileFd manager.context.resourceHandle manager)

/-- `XI_RESOURCE_MANAGER_YIELD_FROM`. Only the first turn registers. -/
def yieldFrom (resumed : Bool) (cs : Cs) (alloc : Bool) (state : XiState) (postInvocation : Post) (manager : Manager) : Option Yield :=
  (if resumed then some (true,manager) else registerFileFd manager.context.resourceHandle alloc manager).bind fun (registered,manager) =>
    if registered then (postInvocation state {manager with answers := manager.answers ++ [state]}).map (afterCall cs)
    else some (.failed .outOfMemory manager)

/-- `xi_resource_manager_set_callback_state` -/
def setCallbackState (callback state : XiState) : XiState := if callback = .ok then state else callback

/-- The error label. A handle that is not set is not run. -/
def fail (resets : Bool) (state : XiState) (manager : Manager) : Manager :=
  {manager with
    context := {manager.context with callback := none, cs := if resets then .start else manager.context.cs}
    ran := manager.ran ++ manager.context.callback.toList.map fun callback => setCallbackState callback state}

/-- `XI_RESOURCE_MANGER_INVOKE_CALLBACK` and the exit -/
def invokeCallback (resets execute : Bool) (manager : Manager) : Manager :=
  match manager.context.callback with
  | none => fail resets .ok manager
  | some callback =>
    let callback := setCallbackState callback .ok
    if execute then {manager with context.callback := none, context.cs := .start, queue := manager.queue ++ [.callback callback]}
    else fail resets .outOfMemory {manager with context.callback := some callback}

/-- The calls of the file system that are followed by an empty block. -/
def noPost : Post := fun state manager => some (false,state,manager)

def openResource (resumed : Bool) (turn : Turn) (manager : Manager) : Option Manager :=
  (yieldFrom resumed .open turn.registerOpen turn.openAnswer.state noPost manager).map fun
    | .waiting manager => manager
    | .failed state manager => fail true state manager
    | .done manager => invokeCallback true turn.execute {manager with context.resourceHandle := turn.openAnswer.handle}

def openCoroutine (turn : Turn) (manager : Manager) : Option Manager :=
  if manager.context.cs = .open then openResource true {turn with openAnswer := turn.answer} manager
  else
    (yieldFrom (manager.context.cs = .stat) .stat turn.register turn.answer.state
        (fun state manager => some (false,state,{manager with context.resourceSize := turn.answer.size})) manager).bind fun
      | .waiting manager => some manager
      | .failed state manager => some (fail true state manager)
      | .done manager => openResource false turn manager

/-- A buffer that is `NULL` is refused by the appends. -/
def appendFirst (desc : DataDesc) : Option (List UInt8) → XiState × DataDesc
  | none => (.invalidParameter,desc)
  | some bytes => desc.appendBytes bytes

def appendNext (grow : Bool) (desc : DataDesc) : Option (List UInt8) → Option (XiState × DataDesc)
  | none => some (.invalidParameter,desc)
  | some bytes => desc.appendDataResize grow bytes

def Answer.bufferSize (answer : Answer) : Nat := match answer.buffer with
  | none => 0
  | some bytes => bytes.length

/-- The buffer is stored by its kind of completeness. An append that fails does not change the state. -/
def accumulate (turn : Turn) (state : XiState) (context : Context) : Option (Bool × XiState × Context) :=
  match context.dataBuffer with
  | none =>
    if state = .ok then
      turn.answer.buffer.map fun bytes =>
        if turn.desc then (false,state,{context with dataBuffer := some (DataDesc.makeDescFromBufferShare bytes)})
        else (true,.outOfMemory,context)
    else if state = .wantRead then
      if context.resourceSize = 0 then none
      else if turn.desc && turn.descBuffer then
        let (appended,desc) := appendFirst (DataDesc.makeEmptyDescAlloc (UInt32.ofNat context.resourceSize)) turn.answer.buffer
        some (appended != .ok,state,{context with dataBuffer := some desc})
      else some (true,.outOfMemory,context)
    else some (false,state,context)
  | some desc =>
    if state = .wantRead ∨ state = .ok then
      (appendNext turn.grow desc turn.answer.buffer).map fun (appended,desc) => (appended != .ok,state,{context with dataBuffer := some desc})
    else some (false,state,context)

/-- The block after each `read_resource`: both tests of completeness. -/
def readPost (turn : Turn) : Post := fun state manager =>
  let context := {manager.context with dataOffset := (manager.context.dataOffset + turn.answer.bufferSize) % 2 ^ 64}
  let state := if state = .ok ∧ context.dataOffset ≠ context.resourceSize then .wantRead else state
  (accumulate turn state context).map fun (jumps,state,context) =>
    (jumps,if ¬ jumps ∧ context.dataOffset < context.resourceSize then .wantRead else state,{manager with context})

/-- The offset is reset before the first turn. -/
def resetOffset (manager : Manager) : Manager :=
  if manager.context.cs = .read then manager else {manager with context.dataOffset := 0}

/-- A buffer must be there in the end. -/
def readCoroutine (turn : Turn) (manager : Manager) : Option Manager :=
  (yieldFrom (manager.context.cs = .read) .read turn.register turn.answer.state (readPost turn) (resetOffset manager)).bind fun
    | .waiting manager => some manager
    | .failed state manager => some (fail false state manager)
    | .done manager => if manager.context.dataBuffer.isSome then some (invokeCallback false turn.execute manager) else none

def closeCoroutine (turn : Turn) (manager : Manager) : Option Manager :=
  (yieldFrom (manager.context.cs = .close) .close turn.register turn.answer.state noPost manager).bind fun
    | .waiting manager => some manager
    | .failed state manager => some (fail false state manager)
    | .done manager =>
      if manager.context.dataBuffer.isSome then
        some (invokeCallback false turn.execute {manager with context.resourceHandle := -1})
      else none

inductive Operation
  | open | read | close
  deriving DecidableEq, Repr

def Operation.coroutine : Operation → Turn → Manager → Option Manager
  | .open => openCoroutine
  | .read => readCoroutine
  | .close => closeCoroutine

/-- What the dispatcher does: it runs the first of its queue, or a file that is registered. -/
inductive Event
  | handle (turn : Turn)
  | file (turn : Turn)

def next (operation : Operation) (fd : Int) (manager : Manager) : Event → Option Manager
  | .handle turn =>
    match manager.queue with
    | [] => some manager
    | .callback state :: queue => some {manager with queue, ran := manager.ran ++ [state]}
    | .coroutine :: queue => operation.coroutine turn {manager with queue}
  | .file turn => if fd ∈ manager.registered then operation.coroutine turn manager else some manager

def run (operation : Operation) (fd : Int) : List Event → Manager → Option Manager
  | [],manager => some manager
  | event :: events,manager => (next operation fd manager event).bind (run operation fd events)

/-- An operation that has been accepted: its callback has the state `XI_STATE_OK`, and its coroutine is in the queue. -/
def Manager.Started (manager : Manager) : Prop :=
  manager.context.callback = some .ok ∧ manager.queue = [.coroutine] ∧ manager.ran = [] ∧
    manager.context.resourceHandle ∉ manager.registered

end XivelyClient.ResourceManager
