import XivelyClient.Layer
import XivelyClient.ConnectionData
import Mathlib.Logic.Function.Basic

/-! How one connection opens and closes: the layers of the default chain, the calls between them that wait in the dispatcher, and
the causes to close. What the layers do with data is left to the environment, which sends the causes. -/
namespace XivelyClient.LayerChain

/-- `XI_DEFAULT_LAYER_CHAIN`, the first one at the socket. -/
inductive Layer
  | io | tls | mqttCodec | mqttLogic | controlTopic
  deriving DecidableEq, Repr

def Layer.next : Layer → Option Layer
  | .io => some .tls
  | .tls => some .mqttCodec
  | .mqttCodec => some .mqttLogic
  | .mqttLogic => some .controlTopic
  | .controlTopic => none

def Layer.prev : Layer → Option Layer
  | .io => none
  | .tls => some .io
  | .mqttCodec => some .tls
  | .mqttLogic => some .mqttCodec
  | .controlTopic => some .mqttLogic

/-- What waits in the queue of the dispatcher. -/
inductive Deferred
  | layer (func : LayerFunc) (layer : Layer) (state : XiState)
  | connectionCallback (state : XiState)
  deriving DecidableEq, Repr

/-- A call that is part of closing: a close, or a connect that tells the layers above of a failure. -/
def Deferred.closing : Deferred → Bool
  | .layer .close _ _ | .layer .closeExternally _ _ => true
  | .layer .connect _ state => state != .ok
  | _ => false

/-- How an operation outside of the chain ended, or that it goes on. -/
inductive Outcome
  | done
  | again
  | failed (state : XiState) (bad : state ≠ .ok)
  deriving DecidableEq, Repr

/-- What the current task of the logic layer does when it is stopped. -/
inductive Stop
  | nothing | connect | keepalive | shutdown
  deriving DecidableEq, Repr

/-- What the environment answers in one step: whether the dispatcher and the layer get their memory, how a socket, TLS or file
operation ends, whether more data waits, whether the subscription of the control topic is made, whether the file with the
certificate begins to close, and which task is stopped. -/
structure Answers where
  alloc : Bool := true
  layerAlloc : Bool := true
  outcome : Outcome := .done
  more : Bool := false
  subscribes : Bool := true
  closesResource : Bool := false
  stop : Stop := .nothing
  deriving DecidableEq, Repr

/-- The layers and their data, the operations that wait outside of the dispatcher's queue, and what the user was told. `closes`
counts how often something began to close, `teardowns` how often the data of the logic layer was freed. -/
structure Chain where
  layerState : Layer → LayerState := fun _ => .none
  hasData : Layer → Bool := fun _ => false
  socketWaits : Bool := false
  handshaking : Bool := false
  resourceOpen : Bool := false
  resourceWaits : Nat := 0
  connecting : Bool := false
  connectionState : ConnectionState := .uninitialized
  queue : List Deferred := []
  told : List (ConnectionState × XiState) := []
  closes : Nat := 0
  teardowns : Nat := 0

namespace Chain

variable (chain : Chain) (answers : Answers) (state : XiState)

def setData (layer : Layer) (data : Bool) : Chain := {chain with hasData := Function.update chain.hasData layer data}

/-- `xi_layer_continue_with_impl` -/
def continueWith (func : LayerFunc) (source : Layer) (target : Option Layer) (alloc : Bool) : Chain :=
  match target with
  | none => chain
  | some target =>
    if alloc then
      {chain with
        queue := chain.queue ++ [.layer func target state]
        layerState := Function.update chain.layerState source
          (LayerState.getNextLayerState func (chain.layerState source) state)}
    else chain

def onThis (func : LayerFunc) (layer : Layer) : Chain := chain.continueWith state func layer (some layer) answers.alloc
def onNext (func : LayerFunc) (layer : Layer) : Chain := chain.continueWith state func layer layer.next answers.alloc
def onPrev (func : LayerFunc) (layer : Layer) : Chain := chain.continueWith state func layer layer.prev answers.alloc

def operational (layer : Layer) : Bool := !(chain.layerState layer).notOperational && chain.hasData layer

section Io

def ioNetLayerInit : Chain :=
  if chain.hasData .io then chain
  else if answers.layerAlloc then
    match answers.outcome with
    | .failed state _ => chain.onThis answers state .connect .io
    | _ => (chain.setData .io true).onThis answers .ok .connect .io
  else chain.onThis answers .outOfMemory .connect .io

def ioNetLayerConnect : Chain :=
  if state ≠ .ok then chain.onNext answers state .connect .io
  else if chain.hasData .io then
    match answers.outcome with
    | .again => {chain with socketWaits := true}
    | .done => {chain with socketWaits := false}.onNext answers .ok .connect .io
    | .failed state _ => {chain with socketWaits := false}.onNext answers state .connect .io
  else chain.onNext answers .internalError .connect .io

def ioNetLayerClose : Chain := chain.onThis answers state .closeExternally .io

def ioNetLayerCloseExternally : Chain :=
  if chain.hasData .io then {chain.setData .io false with socketWaits := false}.onNext answers state .closeExternally .io
  else chain.onNext answers state .closeExternally .io

/-- A write or a read that fails in `xi_io_net_layer_push` or `xi_io_net_layer_pull` -/
def ioNetLayerFails : Chain :=
  if chain.operational .io then chain.onThis answers state .closeExternally .io else chain

def ioNetLayerReceives : Chain := if chain.operational .io then chain.onNext answers .ok .pull .io else chain

end Io

section Tls

/-- The coroutine goes on whenever the resource manager has done its part with the certificate. -/
def tlsLayerInit : Chain :=
  if chain.hasData .tls || answers.layerAlloc then
    match answers.outcome with
    | .again => {chain.setData .tls true with
        resourceOpen := true
        queue := if answers.alloc then chain.queue ++ [.layer .init .tls state] else chain.queue}
    | .done => {chain.setData .tls true with resourceOpen := false,handshaking := true}.onPrev answers .ok .init .tls
    | .failed state _ => (chain.setData .tls true).onThis answers state .connect .tls
  else chain.onThis answers .outOfMemory .connect .tls

def connectHandler : Chain :=
  if chain.operational .tls then
    match answers.outcome with
    | .again => chain
    | .done =>
      let chain := if answers.more then chain.onThis answers .wantRead .pull .tls else chain
      {chain with handshaking := false}.onNext answers .ok .connect .tls
    | .failed state _ => chain.onThis answers state .close .tls
  else chain

def recvHandler : Chain :=
  match answers.outcome with
  | .again => chain
  | .done => if answers.more then chain.onThis answers .wantRead .pull .tls else chain
  | .failed state _ => chain.onThis answers state .close .tls

def tlsLayerConnect : Chain :=
  if chain.operational .tls ∧ state = .ok then chain.connectHandler answers else chain.onNext answers state .connect .tls

/-- Data that comes when the layer is not operational closes the layer. -/
def tlsLayerPull : Chain :=
  if chain.operational .tls then if chain.handshaking then chain.connectHandler answers else chain.recvHandler answers
  else chain.onThis answers state .close .tls

def tlsLayerClose : Chain :=
  if chain.hasData .tls then chain.onPrev answers state .close .tls else chain.onThis answers state .closeExternally .tls

def tlsLayerCloseExternally : Chain :=
  if chain.hasData .tls ∧ chain.resourceOpen ∧ answers.closesResource then
    {chain with resourceOpen := false,resourceWaits := chain.resourceWaits + 1}
  else
    let chain := {chain.setData .tls false with resourceOpen := false,handshaking := false}
    if state ≠ .ok ∧ chain.layerState .tls = .connecting then chain.onThis answers state .connect .tls
    else chain.onNext answers state .closeExternally .tls

/-- The resource manager calls `xi_tls_layer_close_externally` again when the file is closed. -/
def resourceClosed : Chain :=
  match chain.resourceWaits with
  | 0 => chain
  | waits + 1 => {chain with resourceWaits := waits}.tlsLayerCloseExternally answers state

end Tls

section Mqtt

def mqttCodecLayerInit : Chain :=
  if answers.layerAlloc then (chain.setData .mqttCodec true).onPrev answers state .init .mqttCodec
  else chain.onPrev answers .outOfMemory .init .mqttCodec

def mqttCodecLayerConnect : Chain := chain.onNext answers state .connect .mqttCodec

def mqttCodecLayerClose : Chain :=
  if chain.hasData .mqttCodec then chain.onPrev answers state .close .mqttCodec
  else chain.onThis answers state .closeExternally .mqttCodec

def mqttCodecLayerCloseExternally : Chain :=
  (chain.setData .mqttCodec false).onNext answers state .closeExternally .mqttCodec

/-- A message that `xi_mqtt_codec_layer_pull` cannot read -/
def mqttCodecLayerFails : Chain :=
  if chain.operational .mqttCodec then chain.onPrev answers state .close .mqttCodec else chain

def mqttLogicLayerInit : Chain :=
  if answers.layerAlloc then
    {chain.setData .mqttLogic true with connectionState := .opening}.onPrev answers state .init .mqttLogic
  else chain.setData .mqttLogic false

/-- The connect task is pushed; it waits for the answer of the server. -/
def mqttLogicLayerConnect : Chain :=
  if state ≠ .ok then chain.onNext answers state .connect .mqttLogic
  else if chain.operational .mqttLogic ∧ answers.layerAlloc then {chain with connecting := true}
  else chain

def mqttLogicLayerClose : Chain :=
  if chain.hasData .mqttLogic then chain.onPrev answers state .close .mqttLogic
  else chain.onThis answers state .closeExternally .mqttLogic

/-- A state that the backoff holds for terminal, in `xi_mqtt_logic_layer_push` or `xi_mqtt_logic_layer_pull` -/
def mqttLogicLayerTerminal : Chain :=
  if chain.operational .mqttLogic then chain.onThis answers .backoffTerminal .close .mqttLogic else chain

/-- `do_reconnect` of the keepalive -/
def doReconnect : Chain := if chain.hasData .mqttLogic then chain.onPrev answers .timeout .close .mqttLogic else chain

def doShutdown : Chain := if chain.hasData .mqttLogic then chain.mqttLogicLayerClose answers .ok else chain

/-- `do_mqtt_connect` behind its first yield, with the answer of the server or the state of the write -/
def doMqttConnect : Chain :=
  if chain.connecting ∧ chain.operational .mqttLogic then
    if state = .ok then {chain with connecting := false,connectionState := .opened}.onNext answers .ok .connect .mqttLogic
    else {chain with connecting := false}.onNext answers state .connect .mqttLogic
  else chain

def doMqttConnectTimeout : Chain :=
  if chain.connecting then {chain with connecting := false}.onNext answers .timeout .connect .mqttLogic else chain

/-- The current task is called with `XI_STATE_TIMEOUT`. -/
def stopTask : Chain :=
  match answers.stop with
  | .nothing => chain
  | .connect => chain.doMqttConnect answers .timeout
  | .keepalive => chain.doReconnect answers
  | .shutdown => chain.doShutdown answers

def mqttLogicLayerCloseExternally : Chain :=
  if state ≠ .ok ∧ chain.layerState .mqttLogic = .connecting then chain.onThis answers state .connect .mqttLogic
  else if chain.hasData .mqttLogic then
    {(chain.stopTask answers).setData .mqttLogic false with connecting := false}.onNext answers state .closeExternally .mqttLogic
  else chain.onNext answers state .closeExternally .mqttLogic

end Mqtt

section ControlTopic

def connectionStateChanged : Chain :=
  if answers.alloc then {chain with queue := chain.queue ++ [.connectionCallback state]} else chain

def controlTopicLayerInit : Chain :=
  if chain.hasData .controlTopic || answers.layerAlloc then
    (chain.setData .controlTopic true).onPrev answers state .init .controlTopic
  else chain

/-- A failure is one to make the names of the topics. -/
def controlTopicLayerConnect : Chain :=
  if state = .ok then
    match answers.outcome with
    | .failed state _ => chain.onPrev answers state .close .controlTopic
    | _ =>
      if answers.subscribes then chain.connectionStateChanged answers .ok
      else (chain.connectionStateChanged answers .ok).onPrev answers .outOfMemory .close .controlTopic
  else chain.onPrev answers state .close .controlTopic

def controlTopicLayerClose : Chain := {chain with connectionState := .closing}.onPrev answers state .close .controlTopic

def finalState : ConnectionState := if chain.connectionState = .opening then .openFailed else .closed

def controlTopicLayerCloseExternally : Chain :=
  {chain.setData .controlTopic false with connectionState := chain.finalState}.connectionStateChanged answers state

end ControlTopic

/-- The user reads the connection state when the callback runs. -/
def runCallback : Chain := {chain with told := chain.told ++ [(chain.connectionState,state)]}

def runDeferred (chain : Chain) (answers : Answers) : Deferred → Chain
  | .connectionCallback state => chain.runCallback state
  | .layer .init .io _ => chain.ioNetLayerInit answers
  | .layer .init .tls state => chain.tlsLayerInit answers state
  | .layer .init .mqttCodec state => chain.mqttCodecLayerInit answers state
  | .layer .init .mqttLogic state => chain.mqttLogicLayerInit answers state
  | .layer .init .controlTopic state => chain.controlTopicLayerInit answers state
  | .layer .connect .io state => chain.ioNetLayerConnect answers state
  | .layer .connect .tls state => chain.tlsLayerConnect answers state
  | .layer .connect .mqttCodec state => chain.mqttCodecLayerConnect answers state
  | .layer .connect .mqttLogic state => chain.mqttLogicLayerConnect answers state
  | .layer .connect .controlTopic state => chain.controlTopicLayerConnect answers state
  | .layer .close .io state => chain.ioNetLayerClose answers state
  | .layer .close .tls state => chain.tlsLayerClose answers state
  | .layer .close .mqttCodec state => chain.mqttCodecLayerClose answers state
  | .layer .close .mqttLogic state => chain.mqttLogicLayerClose answers state
  | .layer .close .controlTopic state => chain.controlTopicLayerClose answers state
  | .layer .closeExternally .io state => chain.ioNetLayerCloseExternally answers state
  | .layer .closeExternally .tls state => chain.tlsLayerCloseExternally answers state
  | .layer .closeExternally .mqttCodec state => chain.mqttCodecLayerCloseExternally answers state
  | .layer .closeExternally .mqttLogic state => chain.mqttLogicLayerCloseExternally answers state
  | .layer .closeExternally .controlTopic state => chain.controlTopicLayerCloseExternally answers state
  | .layer .pull .tls state => chain.tlsLayerPull answers state
  | .layer _ _ _ => chain

/-- The dispatcher runs what waits longest, or something outside of it goes on. -/
inductive Input
  | run | socketReady | receives | ioFails (state : XiState) | codecFails (state : XiState) | terminal | reconnect | shutdown
  | connectEnds (state : XiState) | connectTimeout | resourceClosed (state : XiState)
  deriving DecidableEq, Repr

def perform (chain : Chain) (input : Input) (answers : Answers) : Chain :=
  match input with
  | .run => match chain.queue with
    | [] => chain
    | deferred :: queue => {chain with queue := queue}.runDeferred answers deferred
  | .socketReady => if chain.socketWaits then chain.ioNetLayerConnect answers .ok else chain
  | .receives => chain.ioNetLayerReceives answers
  | .ioFails state => chain.ioNetLayerFails answers state
  | .codecFails state => chain.mqttCodecLayerFails answers state
  | .terminal => chain.mqttLogicLayerTerminal answers
  | .reconnect => chain.doReconnect answers
  | .shutdown => chain.doShutdown answers
  | .connectEnds state => chain.doMqttConnect answers state
  | .connectTimeout => chain.doMqttConnectTimeout answers
  | .resourceClosed state => chain.resourceClosed answers state

/-- How many closes are under way. -/
def underWay (chain : Chain) : Nat := chain.queue.countP Deferred.closing + chain.resourceWaits

def step (chain : Chain) (event : Input × Answers) : Chain :=
  let after := chain.perform event.1 event.2
  {after with
    closes := chain.closes + (after.underWay - chain.underWay)
    teardowns := chain.teardowns + (chain.hasData .mqttLogic && !after.hasData .mqttLogic).toNat}

/-- The init of the top layer has its turn. -/
def start : Chain := {queue := [.layer .init .controlTopic .ok]}

end Chain

end XivelyClient.LayerChain
