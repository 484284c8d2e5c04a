import XivelyClient.Mqtt.Logic.Task

/-! The coroutines that carry the tasks. A coroutine is a function of the layer, its task and what it is
resumed with, to what it does; the task comes back at its next wait point, or not at all. -/
namespace XivelyClient.Mqtt.Logic

def getErrorFromConnack (returnCode : UInt8) : XiState :=
  match returnCode.toNat with
  | 1 => .mqttUnacceptableProtocolVersion
  | 2 => .mqttIdentifierRejected
  | 3 => .mqttServerUnavailible
  | 4 => .mqttBadUsernameOrPassword
  | 5 => .mqttNotAuthorized
  | _ => .mqttConnectUnknownReturnCode

/-- Whether the allocations of a subscription's step succeed: the message's, the time event's, the one that the vector
of handlers may need, and the one of the call of the user's handler. Every other allocation is taken as granted. -/
structure Allocations where
  message : Bool := true
  timer : Bool := true
  vector : Bool := true
  call : Bool := true
  deriving DecidableEq, Repr

section Coroutines

variable (layer : LogicLayer)

def connectMessage (connection : ConnectionData) : Except XiState Message :=
  fillWithConnectData connection.username connection.password connection.keepaliveTimeout connection.sessionType
    connection.willTopic connection.willMessage connection.willQos connection.willRetain

/-- The answer to a CONNECT. Without a keepalive the layer above gets the state that came with it. -/
def connectReply (task : Task) (state : XiState) (msg : Message) : Outcome :=
  if msg.common.type = .connack then
    if msg.connack.returnCode = 0 then {
      task := none
      effects := [.freeMessage msg] ++
        (if 0 < layer.connection.keepaliveTimeout then [.scheduleKeepalive] else []) ++
        [.opened,.connectNext (if 0 < layer.connection.keepaliveTimeout then .ok else state)] ++ task.free}
    else {
      task := none
      effects := [.connectNext (getErrorFromConnack msg.connack.returnCode),.freeMessage msg] ++ task.free}
  else {task := none,effects := [.freeMessage msg] ++ task.free}

def doMqttConnect (task : Task) (state : XiState) (msg : Option Message) : Outcome :=
  if layer.notOperational || !layer.hasData then
    {task := some {task with timeout := none,cs := .start},effects := freeMessage msg}
  else
    match task.cs with
    | .start | .retry =>
      match connectMessage layer.connection with
      | .error _ => {task := none,effects := task.free}
      | .ok message => {
          task := some {task with
            cs := .sent
            timeout := if 0 < layer.connection.connectionTimeout then some .timeout else task.timeout}
          effects := [.send message]}
    | .sent =>
      if state = .written then {task := some {task with cs := .reply}}
      else {task := none,effects := [.connectNext state] ++ freeMessage msg ++ task.free}
    | .reply =>
      match msg with
      | none => .abort task
      | some msg => connectReply layer task state msg

def doMqttConnectTimeout (task : Task) : Outcome :=
  if layer.hasData then {task := none,effects := [.connectNext .timeout] ++ task.free} else .abort task

def doMqttPublishQ0 (task : Task) (state : XiState) (msg : Option Message) : Outcome :=
  if msg.isSome then .abort task
  else if layer.notOperational || !layer.hasData then {task := some task}
  else
    match task.cs with
    | .start | .retry =>
      match task.data with
      | some (.publish data) =>
        match fillWithPublishData (some data.topic) data.data 0 data.retain 0 0 with
        | .error state => {
            task := none
            effects := [.started task.addr] ++ task.deferUsersCallback state ++ task.free}
        | .ok message => {task := some {task with cs := .sent},effects := [.started task.addr,.send message]}
      | _ => .abort task
    | .sent | .reply => {
        task := none
        effects := task.freeData ++ task.deferUsersCallback (if state = .written then .ok else state) ++
          [.freeTask task.addr]}

/-- The way out of a publish that failed. -/
def publishQ1Error (task : Task) (state : XiState) (msg : Option Message) : Outcome :=
  {task := none,effects := task.deferUsersCallback state ++ freeMessage msg ++ task.free}

/-- The head of the loop: the message is made and handed to the codec layer. -/
def publishQ1Send (task : Task) (dup : Nat) : Outcome :=
  match task.data with
  | some (.publish data) =>
    match fillWithPublishData (some data.topic) data.data 1 data.retain dup task.msgId with
    | .error state => publishQ1Error task state none
    | .ok message => {task := some {task with cs := .sent},effects := [.send message]}
  | _ => .abort task

/-- Behind the loop: what came in for the task. -/
def publishQ1Reply (task : Task) (state : XiState) (msg : Option Message) : Outcome :=
  if state ≠ .ok then publishQ1Error task state msg
  else
    match msg with
    | none => .abort task
    | some msg =>
      if msg.common.type ≠ .puback then publishQ1Error task .mqttLogicWrongMessageReceived (some msg)
      else {task := none,effects := task.deferUsersCallback .ok ++ [.freeMessage msg] ++ task.free}

def doMqttPublishQ1 (task : Task) (state : XiState) (msg : Option Message) : Outcome :=
  if !task.context then .abort task
  else if layer.notOperational || !layer.hasData then
    {task := some {task with timeout := none,cs := .start},effects := freeMessage msg}
  else
    match task.cs with
    | .start | .retry =>
      if task.timeout.isSome then .abort task else publishQ1Send task (if state = .resend then 1 else 0)
    | .sent =>
      if state = .written then
        if task.timeout.isSome then .abort task
        else {task := some {task.stored with
          cs := .reply
          timeout := if 0 < layer.connection.keepaliveTimeout then some .timeout else none}}
      else publishQ1Send task 1
    | .reply =>
      if state = .timeout then if task.timeout.isSome then .abort task else publishQ1Send task 1
      else if state = .resend then publishQ1Send {task with timeout := none} 1
      else publishQ1Reply {task with timeout := none} state msg

/-- The way out of a subscription that failed. The user's handler is not called. -/
def subscribeError (task : Task) (msg : Option Message) : Outcome :=
  {task := none,effects := freeMessage msg ++ task.free}

def subscribeSend (allocs : Allocations) (task : Task) (dup : Nat) : Outcome :=
  if !allocs.message then subscribeError task none
  else
    match task.data with
    | some (.subscribe data) =>
      match fillWithSubscribeData (some data.topic) task.msgId data.qos dup with
      | .error _ => subscribeError task none
      | .ok message => {task := some {task with cs := .sent},effects := [.send message]}
    | _ => .abort task

/-- The vector grows by doubling a capacity of eight signed bits. -/
def vectorMaxCapacity : Nat := 64

def subackFailed : UInt8 := 0x80

/-- The status of a SUBACK is passed on to the user; a granted subscription is registered first. -/
def subscribeSuback (allocs : Allocations) (task : Task) (data : SubscribeData) (status : UInt8) : Outcome :=
  if status = subackFailed then
    if allocs.call then
      {task := none,effects := [.subscriptionCall data status .mqttSubscriptionFailed,.freeTask task.addr]}
    else subscribeError task none
  else if !allocs.vector || vectorMaxCapacity ≤ layer.handlersForTopics.length then subscribeError task none
  else if allocs.call then
    {task := none,effects := [.registerHandler data,.subscriptionCall data status .mqttSubscriptionSuccessfull,
      .freeTask task.addr]}
  else {task := none,effects := [.registerHandler data] ++ task.free}

/-- Behind the loop: what came in for the task. -/
def subscribeReply (allocs : Allocations) (task : Task) (state : XiState) (msg : Option Message) : Outcome :=
  if state ≠ .ok then subscribeError task msg
  else
    match msg with
    | none => .abort task
    | some msg =>
      if msg.common.type ≠ .suback then subscribeError task (some msg)
      else
        match msg.suback.topics,task.data with
        | some topic,some (.subscribe data) =>
          let outcome := subscribeSuback layer allocs task data topic.payload
          {outcome with effects := [.freeMessage msg] ++ outcome.effects}
        | _,_ => .abort task

def doMqttSubscribe (allocs : Allocations) (task : Task) (state : XiState) (msg : Option Message) : Outcome :=
  if !task.context then .abort task
  else if !layer.hasData then {task := some {task with timeout := none},effects := freeMessage msg}
  else
    match task.cs with
    | .start => subscribeSend allocs task (if state = .resend then 1 else 0)
    | .sent =>
      if task.timeout.isSome then .abort task
      else if state = .written then
        if 0 < layer.connection.keepaliveTimeout then
          if allocs.timer then {task := some {task.stored with cs := .reply,timeout := some .timeout}}
          else subscribeError task msg
        else {task := some {task.stored with cs := .reply}}
      else if allocs.timer then {task := some {task with cs := .retry,timeout := some .resend}}
      else subscribeError task msg
    | .retry =>
      if task.timeout.isSome || state ≠ .resend then .abort task else subscribeSend allocs task 1
    | .reply =>
      if state = .timeout then if task.timeout.isSome then .abort task else subscribeSend allocs task 1
      else if state = .resend then subscribeSend allocs {task with timeout := none} 1
      else subscribeReply layer allocs {task with timeout := none} state msg

def doMqttKeepaliveTask (task : Task) (state : XiState) (msg : Option Message) : Outcome :=
  if !layer.hasData then {task := some task,effects := freeMessage msg}
  else
    match task.cs with
    | .start | .retry => {task := some {task with cs := .sent},effects := [.send fillWithPingreqData]}
    | .sent =>
      if task.timeout.isSome then .abort task else {task := some {task with cs := .reply,timeout := some .timeout}}
    | .reply =>
      if state = .timeout then
        if task.timeout.isSome then .abort task
        else {task := some {task with cs := .start},effects := [.closePrev .timeout]}
      else if state ≠ .ok then {task := none,effects := task.free}
      else
        match msg with
        | none => .abort task
        | some msg =>
          if msg.common.type = .pingresp then {
            task := none
            effects := (if layer.connection.connectionState = .opened then [.scheduleKeepalive] else []) ++
              [.freeMessage msg] ++ task.free}
          else {task := none,effects := [.freeMessage msg] ++ task.free}

def doShutdown (task : Task) (msg : Option Message) : Outcome :=
  if !layer.hasData then {task := some task,effects := freeMessage msg}
  else
    match task.cs with
    | .start | .retry => {task := some {task with cs := .sent},effects := [.send fillWithDisconnectData]}
    | .sent | .reply => {task := none,effects := [.closePrev .ok] ++ task.free}

/-- `memcmp` over the length of the message's topic; the handler's topic ends in a NUL. -/
def cmpTopics (data : SubscribeData) (topic : DataDesc) : Bool := topic.data.isPrefixOf (data.topic ++ [0])

def callTopicHandler (msg : Message) : Outcome :=
  match msg.publish.topicName with
  | none =>
    if layer.handlersForTopics.isEmpty then {task := none,effects := [.freeMessage msg]}
    else {task := none,fault := true}
  | some topic =>
    match layer.handlersForTopics.find? (cmpTopics · topic) with
    | some data => {task := none,effects := [.topicCall data msg]}
    | none => {task := none,effects := [.freeMessage msg]}

/-- A received QoS 1 message whose task exists. -/
def onPublishQ1Recieved (task : Task) (state : XiState) (msg : Option Message) : Outcome :=
  if layer.notOperational || !layer.hasData then
    {task := some {task with cs := .start},effects := freeMessage msg}
  else
    match task.cs,msg with
    | .start,none => .abort task
    | .sent,_ =>
      if state ≠ .written then {task := some task,effects := [.send (fillWithPubackData task.msgId)]}
      else
        match msg with
        | none => .abort task
        | some msg =>
          let outcome := callTopicHandler layer msg
          {outcome with effects := [.freeTask task.addr] ++ outcome.effects}
    | _,_ => {task := some {task with cs := .sent},effects := [.send (fillWithPubackData task.msgId)]}

end Coroutines

end XivelyClient.Mqtt.Logic
