import XivelyClient.Layer
import XivelyClient.Mqtt.Parser
import XivelyClient.Mqtt.Serialiser

/-! The MQTT codec layer between its `init` and its `close_externally`: `pull` turns the
received buffers into messages, `push` turns messages into buffers, one at a time. What
the layer does to its neighbours is recorded in `trace`; calls to them are deferred. -/
namespace XivelyClient.Mqtt

/-- A message on its way out: the block it lives in and what is in it. -/
structure SentMessage where
  addr : Nat
  contents : Message
  deriving DecidableEq, Repr

/-- `xi_mqtt_codec_layer_task_t`. -/
structure CodecTask where
  msg : Option SentMessage
  msgId : UInt16
  msgType : MqttType
  deriving DecidableEq, Repr

/-- The data argument of a call to the layer above: NULL, a message, or an id and type tuple. -/
inductive Completion
  | null
  | message (addr : Nat)
  | writtenData (msgId : UInt16) (msgType : MqttType)
  deriving DecidableEq, Repr

inductive CodecEffect
  | pushPrev (buffer : List UInt8) (state : XiState)
  | pushNext (completion : Completion) (state : XiState)
  | pullNext (message : Message) (state : XiState)
  | closePrev (state : XiState)
  | freeMessage (addr : Nat)
  | failed
  deriving DecidableEq, Repr

inductive PushCs
  | start | header | payload
  deriving DecidableEq, Repr

inductive PullCs
  | start | reading
  deriving DecidableEq, Repr

/-- `faults` tells for each allocation to come whether it fails (they succeed once it is used up) and
`crashed` that the code has followed a NULL pointer or left a buffer. -/
structure CodecLayer where
  layerState : LayerState := .connected
  msg : Option Message := none
  taskQueue : List CodecTask := []
  parser : Parser := {}
  localState : XiState := .ok
  parserState : XiState := .ok
  msgId : UInt16 := 0
  msgType : MqttType := .none
  pullCs : PullCs := .start
  pushCs : PushCs := .start
  faults : List Bool := []
  trace : List CodecEffect := []
  crashed : Bool := false
  deriving DecidableEq, Repr

namespace CodecLayer

def emit (layer : CodecLayer) (effect : CodecEffect) : CodecLayer :=
  {layer with trace := layer.trace ++ [effect]}

def crash (layer : CodecLayer) : CodecLayer := {layer with crashed := true}

/-- One allocation, with whether it succeeds. -/
def attempt (layer : CodecLayer) : Bool × CodecLayer :=
  match layer.faults with
  | true :: faults => (false,{layer with faults := faults}.emit .failed)
  | false :: faults => (true,{layer with faults := faults})
  | [] => (true,layer)

def allocate (layer : CodecLayer) (yes no : CodecLayer → CodecLayer) : CodecLayer :=
  match layer.attempt with
  | (true,layer) => yes layer
  | (false,layer) => no layer

/-- A deferred call needs an event of the dispatcher; when there is none the call is lost. -/
def post (layer : CodecLayer) (effect : CodecEffect) : CodecLayer :=
  layer.allocate (·.emit effect) id

@[simp] theorem attempt_layerState (layer : CodecLayer) : layer.attempt.2.layerState = layer.layerState := by
  unfold attempt
  split <;> rfl

theorem allocate_layerState {layer : CodecLayer} {yes no : CodecLayer → CodecLayer}
    (hyes : ∀ layer, (yes layer).layerState = layer.layerState)
    (hno : ∀ layer, (no layer).layerState = layer.layerState) :
    (layer.allocate yes no).layerState = layer.layerState := by
  have kept := attempt_layerState layer
  unfold allocate
  split
  · rename_i attempted
    rw [hyes,← kept,attempted]
  · rename_i attempted
    rw [hno,← kept,attempted]

@[simp] theorem post_layerState (layer : CodecLayer) (effect : CodecEffect) :
    (layer.post effect).layerState = layer.layerState :=
  allocate_layerState (fun _ => rfl) (fun _ => rfl)

def freeMessage (layer : CodecLayer) : Option SentMessage → CodecLayer
  | none => layer
  | some msg => layer.emit (.freeMessage msg.addr)

def clearTasks : List CodecTask → CodecLayer → CodecLayer
  | [],layer => {layer with taskQueue := []}
  | task :: tasks,layer =>
    let layer := layer.allocate
      (·.post (.pushNext (.writtenData task.msgId task.msgType) .failedWriting))
      (·.post (.pushNext .null .failedWriting))
    clearTasks tasks (layer.freeMessage task.msg)

@[simp] theorem freeMessage_layerState (layer : CodecLayer) (msg : Option SentMessage) :
    (layer.freeMessage msg).layerState = layer.layerState := by
  cases msg <;> rfl

@[simp] theorem clearTasks_layerState (tasks : List CodecTask) (layer : CodecLayer) :
    (clearTasks tasks layer).layerState = layer.layerState := by
  induction tasks generalizing layer with
  | nil => rfl
  | cons task tasks ih =>
    rw [clearTasks,ih,freeMessage_layerState,
      allocate_layerState (fun _ => post_layerState _ _) (fun _ => post_layerState _ _)]

def clearTaskQueue (layer : CodecLayer) : CodecLayer := clearTasks layer.taskQueue layer

section Pull

def pullErrHandling (layer : CodecLayer) (state : XiState) : CodecLayer :=
  let layer := {layer with msg := none,pullCs := .start}.clearTaskQueue
  let state := XiState.maxCode state layer.localState
  {layer.post (.closePrev state) with
    layerState := LayerState.getNextLayerState .close layer.layerState state}

/-- A new message and a parser that has been reset, unless a message is being read. -/
def pullBegin (layer : CodecLayer) : Bool × CodecLayer :=
  match layer.pullCs with
  | .start => ((layer.attempt).1,{(layer.attempt).2 with msg := some {},parser := parserInit})
  | .reading => (true,layer)

/-- What `pull` has of an answer of the parser before it looks at it. -/
def parsed (layer : CodecLayer) (answer : XiState) (parser : Parser) (parserState : XiState)
    (message : Message) : CodecLayer :=
  {layer with parser := parser,parserState := parserState,localState := answer,msg := some message}

def deliver (layer : CodecLayer) (message : Message) : CodecLayer :=
  {layer with msg := none,pullCs := .start}.emit (.pullNext message layer.localState)

theorem pullBegin_fresh (layer : CodecLayer) (fresh : layer.pullCs = .start) :
    (pullBegin layer).2.parser = parserInit := by
  simp [pullBegin,fresh]

/-- `xi_mqtt_codec_layer_pull` on the unread bytes of a buffer. After a message it calls itself for what
is left of the buffer. The allocations of the parser succeed. -/
def pull (layer : CodecLayer) (src : List UInt8) (state : XiState) : CodecLayer :=
  if layer.crashed || layer.layerState.notOperational then layer
  else if state ≠ .ok then layer.pullErrHandling state
  else if (pullBegin layer).1 = false then (pullBegin layer).2.pullErrHandling .outOfMemory
  else
    match _executed : parserExecute (pullBegin layer).2.parser (pullBegin layer).2.parserState
        ((pullBegin layer).2.msg.getD {}) src with
    | .fault => (pullBegin layer).2.crash
    | .returned answer parser parserState message rest =>
      let next := (pullBegin layer).2.parsed answer parser parserState message
      if answer = .wantRead then {next with pullCs := .reading}
      else if answer ≠ .ok then next.pullErrHandling state
      else if _left : rest = [] then next.deliver message
      else pull (next.deliver message) rest state
termination_by (src.length,layer.pullCs.ctorIdx)
decreasing_by
  have same : (next.deliver message).pullCs.ctorIdx = 0 := rfl
  rw [same]
  cases begun : layer.pullCs with
  | start =>
    rw [pullBegin_fresh layer begun] at _executed
    exact Prod.Lex.left _ _ (parserExecute_fresh_length _executed _left)
  | reading =>
    rcases Nat.lt_or_ge rest.length src.length with shorter | full
    · exact Prod.Lex.left _ _ shorter
    · have equal : rest.length = src.length := le_antisymm (parserExecute_suffix _executed).length_le full
      rw [equal]
      exact Prod.Lex.right _ (by decide)

end Pull

section Push

/-- `xi_mqtt_codec_layer_make_task`. -/
def makeTask (msg : SentMessage) : CodecTask :=
  ⟨some msg,getMessageId msg.contents,msg.contents.common.type⟩

/-- The label `err_handling`: the queue is emptied and the argument of the call, whatever it was, is
handed up. -/
def pushErrHandling (layer : CodecLayer) (data : Option SentMessage) : CodecLayer :=
  let layer := {layer.clearTaskQueue with pushCs := .start}
  match data with
  | none => layer.post (.pushNext .null .failedWriting)
  | some msg => layer.post (.pushNext (.message msg.addr) .failedWriting)

/-- The coroutine from its start to its first yield. -/
def pushEncode (layer : CodecLayer) (data : Option SentMessage) : CodecLayer :=
  match data with
  | none => layer.pushErrHandling none
  | some msg =>
    let layer := {layer with msgId := getMessageId msg.contents,msgType := msg.contents.common.type}
    match serialiserSize msg.contents with
    | .error .nullPointer => layer.crash
    | .error .error => (layer.emit .failed).pushErrHandling data
    | .ok size =>
      layer.allocate
        (fun layer =>
          let buffer := DataDesc.makeEmptyDescAlloc (UInt32.ofNat (size.msgLen - size.publishPayloadLen))
          match serialiserWrite msg.contents buffer size.remainingLen with
          | .error .nullPointer => layer.crash
          | .error .error => (layer.emit .failed).pushErrHandling data
          | .ok buffer => {layer with pushCs := .header}.post (.pushPrev buffer.data .ok))
        (·.pushErrHandling data)

/-- The head task gets its message back, which `activate_task` had taken from it. -/
def continueTask (layer : CodecLayer) (msg : SentMessage) : CodecLayer :=
  match layer.taskQueue with
  | [] => layer.crash
  | task :: tasks => {layer with taskQueue := {task with msg := some msg} :: tasks}

/-- What happens behind `finalise` once the completion tuple is there. -/
def pushNextTask (layer : CodecLayer) : CodecLayer :=
  match layer.taskQueue with
  | [] => layer.crash
  | done :: tasks =>
    let layer := {layer.freeMessage done.msg with taskQueue := tasks,pushCs := .start}
    match tasks with
    | [] => layer
    | task :: tasks =>
      match task.msg with
      | none => layer.crash
      | some msg =>
        -- `activate_task`, then the call of the function by itself with WANT_WRITE
        let layer := {layer with taskQueue := {task with msg := none} :: tasks}
        (layer.continueTask msg).pushEncode (some msg)

def pushFinalise (layer : CodecLayer) (state : XiState) : CodecLayer :=
  match layer.taskQueue with
  | [] => layer.crash
  | task :: tasks =>
    let layer := {layer.freeMessage task.msg with taskQueue := {task with msg := none} :: tasks}
    layer.allocate
      (fun layer => (layer.post (.pushNext (.writtenData layer.msgId layer.msgType) state)).pushNextTask)
      (·.pushErrHandling none)

/-- The coroutine behind its first yield, with the completion of the header. -/
def pushHeaderWritten (layer : CodecLayer) (state : XiState) : CodecLayer :=
  match layer.taskQueue.head?.bind CodecTask.msg with
  | none => layer.crash
  | some msg =>
    if state ≠ .written then layer.pushFinalise state
    else if msg.contents.common.type = .publish then
      match msg.contents.publish.content with
      | none => layer.crash
      | some content =>
        if 0 < content.length then
          layer.allocate (fun layer => {layer with pushCs := .payload}.post (.pushPrev content.data .ok))
            (·.pushErrHandling none)
        else layer.pushFinalise state
    else layer.pushFinalise state

def pushCoroutine (layer : CodecLayer) (data : Option SentMessage) (state : XiState) : CodecLayer :=
  match layer.pushCs with
  | .start => layer.pushEncode data
  | .header => layer.pushHeaderWritten state
  | .payload => layer.pushFinalise state

/-- `xi_mqtt_codec_layer_push`. A message comes from above with OK, a completion from below without one. -/
def push (layer : CodecLayer) (data : Option SentMessage) (state : XiState) : CodecLayer :=
  if layer.crashed then layer
  else if layer.layerState.notOperational then layer.freeMessage data
  else
    match data,state with
    | some msg,.ok =>
      layer.allocate
        (fun layer =>
          let layer := {layer with taskQueue := layer.taskQueue ++ [makeTask msg]}
          if layer.pushCs = .start then layer.pushCoroutine data state else layer)
        (·.pushErrHandling data)
    | some msg,.wantWrite => (layer.continueTask msg).pushCoroutine data state
    | _,_ => layer.pushCoroutine data state

end Push

end CodecLayer

end XivelyClient.Mqtt
