import XivelyClient.ConnectionData
import XivelyClient.Layer

/-! The tasks of the logic layer (`xi_mqtt_logic_task_t`), the data of the layer and what the layer does
to its neighbours. Calls between layers and callbacks are left in the dispatcher's queue, so every call
of the layer runs to its end on its own; what it leaves behind is a list of effects. -/
namespace XivelyClient.Mqtt.Logic

inductive Scenario
  | connect | publish | puback | subscribe | keepalive | shutdown
  deriving DecidableEq, Repr

inductive Qos
  | atMostOnce | atLeastOnce | exactlyOnce
  deriving DecidableEq, Repr

inductive TaskPriority
  | normal | immediate
  deriving DecidableEq, Repr

inductive SessionState
  | unset | doNotStore | store
  deriving DecidableEq, Repr

structure PublishData where
  topic : List UInt8
  data : DataDesc
  retain : Nat
  deriving DecidableEq, Repr

/-- `block` is the address of the memory, which the task, the vector of handlers and a pending call of
the user's handler share. -/
structure SubscribeData where
  block : Nat
  topic : List UInt8
  handler : Nat
  qos : UInt8
  deriving DecidableEq, Repr

inductive TaskData
  | publish (data : PublishData)
  | subscribe (data : SubscribeData)
  deriving DecidableEq, Repr

/-- Where the task's coroutine goes on. A coroutine that was reset or has exited starts again. `sent`
waits for the confirmation of the codec layer, `reply` for the server, `retry` for the next try of a
subscription. -/
inductive Cs
  | start | sent | reply | retry
  deriving DecidableEq, Repr

/-- `context` and `msg` are the first and the last argument in `logic`; the function there is the one
that belongs to the scenario and the QoS. `timeout` is the state that the pending time event passes. -/
structure Task where
  addr : Nat
  timeout : Option XiState := none
  context : Bool := true
  msg : Option Message := none
  callback : Option Nat := none
  scenario : Scenario
  qos : Qos := .atMostOnce
  data : Option TaskData := none
  priority : TaskPriority := .normal
  sessionState : SessionState := .unset
  cs : Cs := .start
  msgId : UInt16 := 0
  deriving DecidableEq, Repr

/-- `started` marks that a QoS 0 publish has come past its first check. -/
inductive Effect
  | send (message : Message)
  | connectNext (state : XiState)
  | connectThis (state : XiState)
  | initPrev
  | postConnectPrev
  | closeThis (state : XiState)
  | closePrev (state : XiState)
  | closeExternallyThis (state : XiState)
  | closeExternallyNext (state : XiState)
  | opened
  | scheduleKeepalive
  | usersCallback (task callback : Nat) (state : XiState)
  | registerHandler (data : SubscribeData)
  | subscriptionCall (data : SubscribeData) (status : UInt8) (state : XiState)
  | topicCall (data : SubscribeData) (message : Message)
  | freeMessage (message : Message)
  | freeData (block : Nat)
  | freeTask (addr : Nat)
  | started (addr : Nat)
  deriving DecidableEq, Repr

/-- A call of a user's subscription handler that waits in the dispatcher. -/
structure SubscriptionCall where
  data : SubscribeData
  status : UInt8
  state : XiState
  deriving DecidableEq, Repr

/-- `sending` holds what the codec layer has got and not confirmed, `calls` the calls of subscription
handlers that wait in the dispatcher, `orphans` the time events whose task was freed under them. `fault`
tells that an assertion failed or a NULL pointer was read. -/
structure LogicLayer where
  layerState : LayerState := .none
  connection : ConnectionData := {}
  hasData : Bool := false
  q12TasksQueue : List Task := []
  q12RecvTasksQueue : List Task := []
  q0TasksQueue : List Task := []
  currentQ0Task : Option Task := none
  handlersForTopics : List SubscribeData := []
  keepaliveEvent : Bool := false
  lastMsgId : UInt16 := 0
  copyOfHandlersForTopics : List SubscribeData := []
  copyOfQ12UnackedMessagesQueue : List Task := []
  copyOfLastMsgId : UInt16 := 0
  sending : List (UInt16 × MqttType) := []
  calls : List SubscriptionCall := []
  orphans : List Nat := []
  nextAddr : Nat := 0
  effects : List Effect := []
  fault : Bool := false
  deriving DecidableEq, Repr

namespace LogicLayer

def notOperational (layer : LogicLayer) : Bool := layer.layerState.notOperational

def moveLayer (layer : LogicLayer) (func : LayerFunc) (state : XiState) : LogicLayer :=
  {layer with layerState := .getNextLayerState func layer.layerState state}

/-- What an effect changes at once; a time event may be scheduled only once. -/
def apply (layer : LogicLayer) : Effect → LogicLayer
  | .send message => {layer with sending := layer.sending ++ [(getMessageId message,message.common.type)]}
  | .connectNext state => layer.moveLayer .connect state
  | .connectThis state => layer.moveLayer .connect state
  | .initPrev => layer.moveLayer .init .ok
  | .postConnectPrev => layer.moveLayer .postConnect .ok
  | .closeThis state => layer.moveLayer .close state
  | .closePrev state => layer.moveLayer .close state
  | .closeExternallyThis state => layer.moveLayer .closeExternally state
  | .closeExternallyNext state => layer.moveLayer .closeExternally state
  | .opened => {layer with connection := {layer.connection with connectionState := .opened}}
  | .scheduleKeepalive => {layer with keepaliveEvent := true,fault := layer.fault || layer.keepaliveEvent}
  | .registerHandler data => {layer with handlersForTopics := layer.handlersForTopics ++ [data]}
  | .subscriptionCall data status state => {layer with calls := layer.calls ++ [⟨data,status,state⟩]}
  | _ => layer

def perform (layer : LogicLayer) (effects : List Effect) : LogicLayer :=
  effects.foldl (fun layer effect => {layer.apply effect with effects := layer.effects ++ [effect]}) layer

end LogicLayer

/-- What a coroutine does when it is resumed. Without a task it has been finalised and its memory freed. -/
structure Outcome where
  task : Option Task
  effects : List Effect := []
  fault : Bool := false
  deriving DecidableEq, Repr

namespace Task

/-- `xi_mqtt_logic_free_task_data`; the union's member is the one that the scenario selects. -/
def freeData (task : Task) : List Effect :=
  match task.data with
  | some _ => [.freeData task.addr]
  | none => []

def free (task : Task) : List Effect := task.freeData ++ [.freeTask task.addr]

/-- `xi_mqtt_logic_task_defer_users_callback` -/
def deferUsersCallback (task : Task) (state : XiState) : List Effect :=
  match task.callback with
  | some callback => [.usersCallback task.addr callback state]
  | none => []

/-- The message is stored with the session once it is written. -/
def stored (task : Task) : Task :=
  {task with sessionState := if task.sessionState = .unset then .store else task.sessionState}

end Task

def freeMessage (msg : Option Message) : List Effect :=
  match msg with
  | some msg => [.freeMessage msg]
  | none => []

/-- A failed assertion or a NULL pointer: nothing behind it counts. -/
def Outcome.abort (task : Task) : Outcome := {task := some task,fault := true}

end XivelyClient.Mqtt.Logic
