import XivelyClient.Mqtt.Logic.Commands

/-! The functions of the logic layer (`xi_mqtt_logic_layer.c`) and the machine that they make together
with the dispatcher, which fires time events and delivers what the neighbours send in any order. -/
namespace XivelyClient.Mqtt.Logic

inductive BackoffClass
  | none | recoverable | terminal
  deriving DecidableEq, Repr

def backoffClassifyState : XiState → BackoffClass
  | .connectionResetByPeerError | .mqttUnacceptableProtocolVersion | .mqttIdentifierRejected
  | .mqttBadUsernameOrPassword | .mqttNotAuthorized => .terminal
  | .ok | .written => .none
  | _ => .recoverable

/-- The task at this address in its new state, or without it. -/
def replaceTask (addr : Nat) (result : Option Task) (queue : List Task) : List Task :=
  queue.filterMap fun task => if task.addr = addr then result else some task

def findTask (msgId : UInt16) (queue : List Task) : Option Task := queue.find? (·.msgId = msgId)

namespace LogicLayer

def failIf (layer : LogicLayer) (fault : Bool) : LogicLayer := {layer with fault := layer.fault || fault}

/-- The function in the handle of a task that may run as the current QoS 0 task. -/
def executeQ0 (layer : LogicLayer) (task : Task) (state : XiState) (msg : Option Message) : Outcome :=
  match task.scenario with
  | .connect => doMqttConnect layer task state msg
  | .publish => doMqttPublishQ0 layer task state msg
  | .keepalive => doMqttKeepaliveTask layer task state msg
  | .shutdown => doShutdown layer task msg
  | _ => .abort task

/-- The function in the handle of a queued QoS 1 or 2 task; a QoS 2 publish has none. -/
def executeQ12 (layer : LogicLayer) (allocs : Allocations) (task : Task) (state : XiState)
    (msg : Option Message) : Outcome :=
  match task.scenario,task.qos with
  | .publish,.atLeastOnce => doMqttPublishQ1 layer task state msg
  | .subscribe,_ => doMqttSubscribe layer allocs task state msg
  | _,_ => {task := some task}

/-- The queue from which the next QoS 0 task is taken. While the connection opens only a CONNECT runs;
another task goes to the back. A task that ends where it starts makes room for the next. -/
def runQ0Tasks (layer : LogicLayer) : List Task → LogicLayer
  | [] => {layer with q0TasksQueue := [],currentQ0Task := none}
  | task :: queue =>
    if layer.connection.connectionState = .opening ∧ task.scenario ≠ .connect then
      {layer with q0TasksQueue := queue ++ [task],currentQ0Task := none}
    else
      let outcome := layer.executeQ0 task .ok task.msg
      let layer := (layer.perform outcome.effects).failIf outcome.fault
      match outcome.task with
      | some task => {layer with q0TasksQueue := queue,currentQ0Task := some task}
      | none => layer.runQ0Tasks queue

/-- The current task, which is gone by then, makes room for the next. -/
def runNextQ0Task (layer : LogicLayer) : LogicLayer := layer.runQ0Tasks layer.q0TasksQueue

/-- What the outcome of the current task leaves behind. -/
def finishQ0 (layer : LogicLayer) (outcome : Outcome) : LogicLayer :=
  let layer := (layer.perform outcome.effects).failIf outcome.fault
  match outcome.task with
  | some task => {layer with currentQ0Task := some task}
  | none => layer.runNextQ0Task

def resumeQ0 (layer : LogicLayer) (task : Task) (state : XiState) (msg : Option Message) : LogicLayer :=
  layer.finishQ0 (layer.executeQ0 task state msg)

def resumeQ12 (layer : LogicLayer) (allocs : Allocations) (task : Task) (state : XiState)
    (msg : Option Message) : LogicLayer :=
  let outcome := layer.executeQ12 allocs task state msg
  let queue := replaceTask task.addr outcome.task layer.q12TasksQueue
  (({layer with q12TasksQueue := queue}.perform outcome.effects).failIf outcome.fault)

def resumeRecv (layer : LogicLayer) (task : Task) (state : XiState) (msg : Option Message) : LogicLayer :=
  let outcome := onPublishQ1Recieved layer task state msg
  let queue := replaceTask task.addr outcome.task layer.q12RecvTasksQueue
  (({layer with q12RecvTasksQueue := queue}.perform outcome.effects).failIf outcome.fault)

/-- `run_task` at QoS 0: only the priority tells where the task is queued. -/
def queueQ0Task (layer : LogicLayer) (task : Task) : LogicLayer :=
  let queue := match task.priority with
    | .normal => layer.q0TasksQueue ++ [task]
    | .immediate => task :: layer.q0TasksQueue
  let layer := {layer with q0TasksQueue := queue}
  match layer.currentQ0Task with
  | some _ => layer
  | none => layer.runNextQ0Task

/-- `run_task` at QoS 1 and 2: the task gets the next message id. -/
def queueQ12Task (layer : LogicLayer) (allocs : Allocations) (task : Task) : LogicLayer :=
  let task := {task with msgId := layer.lastMsgId + 1}
  let layer := {layer with lastMsgId := task.msgId,q12TasksQueue := layer.q12TasksQueue ++ [task]}
  if layer.connection.connectionState = .opened then layer.resumeQ12 allocs task .ok task.msg else layer

def runTask (layer : LogicLayer) (allocs : Allocations) (task : Task) : LogicLayer :=
  match task.qos with
  | .atMostOnce => layer.queueQ0Task task
  | _ => layer.queueQ12Task allocs task

/-- `xi_mqtt_logic_layer_push` of a task. -/
def push (layer : LogicLayer) (allocs : Allocations) (task : Task) (state : XiState) : LogicLayer :=
  if layer.notOperational || !layer.hasData then layer.perform task.free
  else if backoffClassifyState state = .terminal then
    layer.perform ([.closeThis .backoffTerminal] ++ task.free)
  else
    match task.scenario,task.qos with
    | .publish,.exactlyOnce => (layer.perform task.freeData).runTask allocs {task with data := none}
    | .shutdown,_ =>
      if layer.currentQ0Task.any (·.scenario = .shutdown) then layer.perform task.free
      else layer.runTask allocs task
    | _,_ => layer.runTask allocs task

/-- `xi_mqtt_logic_layer_push` of a confirmation of the codec layer. The restart of the keepalive event
leaves it scheduled. -/
def confirm (layer : LogicLayer) (allocs : Allocations) (msgId : UInt16) (type : MqttType) (state : XiState) :
    LogicLayer :=
  if layer.notOperational || !layer.hasData then layer
  else if msgId = 0 then
    match layer.currentQ0Task with
    | some task => layer.resumeQ0 task state task.msg
    | none => layer
  else
    match classMsgTypeSending type with
    | .fromServer =>
      match findTask msgId layer.q12RecvTasksQueue with
      | some task => layer.resumeRecv task state task.msg
      | none => layer
    | .toServer =>
      match findTask msgId layer.q12TasksQueue with
      | some task => layer.resumeQ12 allocs task state task.msg
      | none => layer
    | .unknown => layer

/-- A new receive task for a QoS 1 message; no other may have its id. -/
def addRecvTask (layer : LogicLayer) (msg : Message) : LogicLayer :=
  let task : Task := {
    addr := layer.nextAddr
    scenario := .puback
    qos := .atLeastOnce
    msg := some msg
    msgId := msg.publish.messageId}
  let known := (findTask task.msgId layer.q12RecvTasksQueue).isSome
  let layer := {layer with
    nextAddr := layer.nextAddr + 1
    q12RecvTasksQueue := layer.q12RecvTasksQueue ++ [task]}
  (layer.failIf known).resumeRecv task .ok (some msg)

/-- `on_publish_recieved`; a message of QoS 2 or 3 is left as it is. -/
def onPublishRecieved (layer : LogicLayer) (msg : Message) : LogicLayer :=
  match msg.common.qos with
  | 0 =>
    let outcome := callTopicHandler layer msg
    (layer.perform outcome.effects).failIf outcome.fault
  | 1 => layer.addRecvTask msg
  | _ => layer

def pull (layer : LogicLayer) (allocs : Allocations) (msg : Message) : LogicLayer :=
  if layer.notOperational || !layer.hasData then layer.perform [.freeMessage msg]
  else if msg.common.type = .publish then layer.onPublishRecieved msg
  else if 0 < getMessageId msg then
    match classMsgTypeReceiving msg.common.type with
    | .fromServer =>
      match findTask (getMessageId msg) layer.q12RecvTasksQueue with
      | some task => layer.resumeRecv {task with msg := some msg} .ok (some msg)
      | none => layer.perform [.freeMessage msg]
    | .toServer =>
      match findTask (getMessageId msg) layer.q12TasksQueue with
      | some task => layer.resumeQ12 allocs {task with msg := some msg} .ok (some msg)
      | none => layer.perform [.freeMessage msg]
    | .unknown => layer.perform [.freeMessage msg]
  else
    match layer.currentQ0Task with
    | some task => layer.resumeQ0 {task with msg := some msg} .ok (some msg)
    | none => layer.failIf true

/-- `xi_mqtt_logic_layer_pull` in a state other than OK, without a message. -/
def pullFailed (layer : LogicLayer) (state : XiState) : LogicLayer :=
  if layer.notOperational || !layer.hasData then layer
  else if backoffClassifyState state = .terminal then layer.perform [.closeThis .backoffTerminal]
  else layer

/-- The end of a time event of a task. -/
def taskTimeout (layer : LogicLayer) (allocs : Allocations) (addr : Nat) : LogicLayer :=
  match layer.currentQ0Task.filter (fun task => task.addr = addr && task.timeout.isSome) with
  | some task =>
    let task := {task with timeout := none}
    if task.scenario = .connect then layer.finishQ0 (doMqttConnectTimeout layer task)
    else layer.resumeQ0 task .timeout none
  | none =>
    match layer.q12TasksQueue.find? (·.addr = addr) with
    | some task =>
      match task.timeout with
      | some state => layer.resumeQ12 allocs {task with timeout := none} state none
      | none => layer
    | none => layer

/-- The time event of a task that is gone: its handler stops if the layer has no data. -/
def orphanTimeout (layer : LogicLayer) (addr : Nat) : LogicLayer :=
  if addr ∈ layer.orphans then
    {layer with orphans := layer.orphans.erase addr,fault := layer.fault || layer.hasData}
  else layer

def doMqttKeepaliveOnce (layer : LogicLayer) : LogicLayer :=
  if layer.keepaliveEvent then
    if layer.hasData then
      let task : Task := {addr := layer.nextAddr,scenario := .keepalive}
      {layer with keepaliveEvent := false,nextAddr := layer.nextAddr + 1}.push {} task .ok
    else {layer with keepaliveEvent := false}
  else layer

/-- The blocks of the handlers in a vector. -/
def freeHandlers (handlers : List SubscribeData) : List Effect := handlers.map fun data => .freeData data.block

def freeTasks (queue : List Task) : List Effect := queue.flatMap Task.free

def init (layer : LogicLayer) (connection : ConnectionData) : LogicLayer :=
  let layer := {layer with hasData := true,connection := {connection with connectionState := .opening}}
  let layer :=
    if connection.sessionType = .continue then
      {layer with
        handlersForTopics := layer.copyOfHandlersForTopics
        copyOfHandlersForTopics := []
        q12TasksQueue := layer.copyOfQ12UnackedMessagesQueue
        copyOfQ12UnackedMessagesQueue := []
        lastMsgId := layer.copyOfLastMsgId
        copyOfLastMsgId := 0}
    else
      {layer.perform (freeHandlers layer.copyOfHandlersForTopics ++ freeTasks layer.copyOfQ12UnackedMessagesQueue) with
        copyOfHandlersForTopics := []
        copyOfQ12UnackedMessagesQueue := []}
  layer.perform [.initPrev]

def connect (layer : LogicLayer) (state : XiState) : LogicLayer :=
  if state ≠ .ok then layer.perform [.connectNext state]
  else
    let task : Task := {addr := layer.nextAddr,scenario := .connect,priority := .immediate}
    {layer with nextAddr := layer.nextAddr + 1}.push {} task .ok

/-- A stored task gets the context of the new connection and sends its message again. -/
def setNewContextAndCallResend (allocs : Allocations) (layer : LogicLayer) (task : Task) : LogicLayer :=
  if task.sessionState = .store then layer.resumeQ12 allocs {task with context := true} .resend task.msg
  else layer

def postConnect (layer : LogicLayer) (allocs : Allocations) : LogicLayer :=
  if layer.hasData then
    (layer.q12TasksQueue.foldl (setNewContextAndCallResend allocs) layer).perform [.postConnectPrev]
  else layer

def close (layer : LogicLayer) (state : XiState) : LogicLayer :=
  if layer.hasData then layer.perform [.closePrev state] else layer.perform [.closeExternallyThis state]

def cancelTaskTimeout (task : Task) : Task := {task with timeout := none}

/-- What a session that is to be continued keeps: the stored tasks in their order, without a context. -/
def saveSession (layer : LogicLayer) : LogicLayer :=
  let layer := {layer with copyOfLastMsgId := layer.lastMsgId}
  let layer :=
    if layer.handlersForTopics.isEmpty then layer
    else
      {layer with
        fault := layer.fault || !layer.copyOfHandlersForTopics.isEmpty
        copyOfHandlersForTopics := layer.handlersForTopics
        handlersForTopics := []}
  {layer with
    copyOfQ12UnackedMessagesQueue :=
      (layer.q12TasksQueue.filter (·.sessionState = .store)).map ({· with context := false})
    q12TasksQueue := layer.q12TasksQueue.filter (·.sessionState ≠ .store)}

/-- The current task is freed. A pending time event is left in the dispatcher; with data it is asserted that
there is none. -/
def freeCurrentTask (layer : LogicLayer) : LogicLayer :=
  match layer.currentQ0Task with
  | none => layer
  | some task =>
    {layer.perform task.free with
      currentQ0Task := none
      orphans := if task.timeout.isSome then layer.orphans ++ [task.addr] else layer.orphans
      fault := layer.fault || (task.timeout.isSome && task.data.isSome)}

/-- The current task is told to stop, and whatever is current then is freed. -/
def stopCurrentTask (layer : LogicLayer) : LogicLayer :=
  match layer.currentQ0Task with
  | none => layer
  | some task => (layer.resumeQ0 task .timeout task.msg).freeCurrentTask

/-- The time events of the queued tasks are cancelled; what is not kept with the session is freed. -/
def releaseSession (layer : LogicLayer) : LogicLayer :=
  let layer := {layer with
    q12TasksQueue := layer.q12TasksQueue.map cancelTaskTimeout
    q12RecvTasksQueue := layer.q12RecvTasksQueue.map cancelTaskTimeout}
  let layer := if layer.connection.sessionType = .continue then layer.saveSession else layer
  {layer.perform (freeHandlers layer.handlersForTopics) with handlersForTopics := []}

/-- The data of the layer and the queues in it. -/
def freeLayerData (layer : LogicLayer) : LogicLayer :=
  {layer.perform (freeTasks layer.q12TasksQueue ++ freeTasks layer.q12RecvTasksQueue ++ freeTasks layer.q0TasksQueue) with
    hasData := false
    keepaliveEvent := false
    lastMsgId := 0
    q12TasksQueue := []
    q12RecvTasksQueue := []
    q0TasksQueue := []}

def closeExternally (layer : LogicLayer) (state : XiState) : LogicLayer :=
  if state ≠ .ok ∧ layer.layerState = .connecting then layer.perform [.connectThis state]
  else if !layer.hasData then layer.perform [.closeExternallyNext state]
  else layer.releaseSession.stopCurrentTask.freeLayerData.perform [.closeExternallyNext state]

end LogicLayer

/-- What a user, or the control topic layer, asks for. -/
inductive Request
  | publish (topic : List UInt8) (data : DataDesc) (qos : Qos) (retain : Nat) (callback : Option Nat)
  | subscribe (topic : List UInt8) (qos : UInt8) (handler : Nat) (session : SessionState)
  | shutdown
  deriving DecidableEq, Repr

/-- `xi_mqtt_logic_make_publish_task` and its siblings. -/
def Request.make (addr : Nat) : Request → Task
  | .publish topic data qos retain callback => {
      addr := addr
      scenario := .publish
      qos := qos
      data := some (.publish ⟨topic,data,retain⟩)
      callback := callback}
  | .subscribe topic qos handler session => {
      addr := addr
      scenario := .subscribe
      qos := .atLeastOnce
      data := some (.subscribe ⟨addr,topic,handler,qos⟩)
      sessionState := session}
  | .shutdown => {addr := addr,scenario := .shutdown,priority := .immediate}

inductive Event
  | push (request : Request)
  | confirm (msgId : UInt16) (type : MqttType) (written : Bool)
  | pull (msg : Message)
  | pullFailed (state : XiState)
  | taskTimeout (addr : Nat)
  | orphanTimeout (addr : Nat)
  | keepaliveOnce
  | init (connection : ConnectionData)
  | connect (state : XiState)
  | postConnect
  | close (state : XiState)
  | closeExternally (state : XiState)
  | setConnectionState (state : ConnectionState)
  | subscriptionCall
  deriving DecidableEq, Repr

namespace LogicLayer

def pushRequest (layer : LogicLayer) (allocs : Allocations) (request : Request) : LogicLayer :=
  {layer with nextAddr := layer.nextAddr + 1}.push allocs (request.make layer.nextAddr) .ok

/-- The confirmation of one message that the codec layer has got. -/
def confirmed (layer : LogicLayer) (allocs : Allocations) (msgId : UInt16) (type : MqttType) (written : Bool) :
    LogicLayer :=
  {layer with sending := layer.sending.erase (msgId,type)}.confirm allocs msgId type
    (if written then .written else .failedWriting)

/-- The dispatcher calls a subscription handler; the wrapper of a failed subscription frees its data
(`xi_user_sub_call_wrapper`). -/
def runSubscriptionCall (layer : LogicLayer) : LogicLayer :=
  match layer.calls with
  | [] => layer
  | call :: calls =>
    let layer := {layer with calls := calls}
    if call.state = .mqttSubscriptionFailed then layer.perform [.freeData call.data.block] else layer

end LogicLayer

open LogicLayer in
/-- One call of the layer. A fault ends the program. -/
def step (allocs : Allocations) (layer : LogicLayer) (event : Event) : LogicLayer :=
  if layer.fault then layer
  else
    match event with
    | .push request => layer.pushRequest allocs request
    | .confirm msgId type written => layer.confirmed allocs msgId type written
    | .pull msg => layer.pull allocs msg
    | .pullFailed state => layer.pullFailed state
    | .taskTimeout addr => layer.taskTimeout allocs addr
    | .orphanTimeout addr => layer.orphanTimeout addr
    | .keepaliveOnce => layer.doMqttKeepaliveOnce
    | .init connection => layer.init connection
    | .connect state => layer.connect state
    | .postConnect => layer.postConnect allocs
    | .close state => layer.close state
    | .closeExternally state => layer.closeExternally state
    | .setConnectionState state => {layer with connection := {layer.connection with connectionState := state}}
    | .subscriptionCall => layer.runSubscriptionCall

end XivelyClient.Mqtt.Logic
