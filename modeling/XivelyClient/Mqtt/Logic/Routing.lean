import XivelyClient.Mqtt.Logic.Incoming
import XivelyClient.Mqtt.RoundTrip

/-! Where the messages of the server go. -/
namespace XivelyClient.Mqtt.Logic
open Wire

/-- The messages that effects hand to a handler or free. -/
def settledBy (effects : List Effect) : List Message := (observe Effect.handled effects).map Prod.snd

/-- What the parser can deliver. -/
def Produced (msg : Message) : Prop :=
  ∃ chunks localState localState' parser rest, (∀ chunk ∈ chunks, chunk ≠ []) ∧
    parserRun parserInit localState {} chunks = .returned .ok parser localState' msg rest

namespace LogicLayer

def settled (layer : LogicLayer) : List Message := settledBy layer.effects

/-- The messages that the receive tasks hold. -/
def held (layer : LogicLayer) : List Message := layer.q12RecvTasksQueue.filterMap Task.msg

/-- The task that a message is given to; a PUBLISH is given to none that is there. -/
def recipient (layer : LogicLayer) (msg : Message) : Option Task :=
  if layer.notOperational || !layer.hasData then none
  else if msg.common.type = .publish then none
  else if 0 < getMessageId msg then
    match classMsgTypeReceiving msg.common.type with
    | .fromServer => findTask (getMessageId msg) layer.q12RecvTasksQueue
    | .toServer => findTask (getMessageId msg) layer.q12TasksQueue
    | .unknown => none
  else layer.currentQ0Task

end LogicLayer

/-- The task waits for a reply of this type. -/
def Task.Awaits (task : Task) (type : MqttType) : Prop :=
  task.cs = .reply ∧
    match task.scenario with
    | .connect => type = .connack
    | .publish => task.qos = .atLeastOnce ∧ type = .puback
    | .subscribe => type = .suback
    | .keepalive => type = .pingresp
    | .puback | .shutdown => False

/-- The layer with what it has received, which task each reply was given to, and whether a message brought it down. -/
structure Routing where
  layer : LogicLayer := {}
  received : List Message := []
  given : List (Task × MqttType) := []
  crashed : Bool := false

namespace Routing

def arrived : Event → List Message
  | .pull msg => [msg]
  | _ => []

def step (routing : Routing) (call : Allocations × Event) : Routing :=
  if routing.layer.fault then routing
  else {
    layer := stepWith routing.layer call
    received := routing.received ++ arrived call.2
    given := routing.given ++ (arrived call.2).flatMap fun msg =>
      (routing.layer.recipient msg).toList.map fun task => (task,msg.common.type)
    crashed := !(arrived call.2).isEmpty && (stepWith routing.layer call).fault}

/-- No message has brought the layer down, each reply was given to a task that waits for it, and each message has been
delivered or freed, once, or is held by its receive task. -/
structure Safe (routing : Routing) : Prop where
  runs : routing.crashed = false
  awaited : ∀ pair ∈ routing.given, pair.1.Awaits pair.2
  once : routing.received.Perm (routing.layer.settled ++ routing.layer.held)

end Routing

/-- The answer schedules the keepalive event. -/
def LogicLayer.schedules (layer : LogicLayer) (msg : Message) : Prop :=
  (msg.common.type = .connack ∧ msg.connack.returnCode = 0 ∧ 0 < layer.connection.keepaliveTimeout) ∨
  (msg.common.type = .pingresp ∧ layer.connection.connectionState = .opened)

/-- A PUBLISH has QoS 0, or QoS 1 and an id that no receive task has. A reply with an id is for a task that waits for it
in its connection, or for none; one without an id is for the current task, which waits for it. No event is
scheduled twice, and no receive task is left when the connection ends. -/
def Event.solicited (layer : LogicLayer) : Event → Prop
  | .pull msg => layer.working →
    if msg.common.type = .publish then
      msg.common.qos = 0 ∨ (msg.common.qos = 1 ∧ findTask msg.publish.messageId layer.q12RecvTasksQueue = none)
    else
      match layer.recipient msg with
      | some task => task.Awaits msg.common.type ∧ task.context = true ∧
        (layer.keepaliveEvent = true → ¬ layer.schedules msg)
      | none => 0 < getMessageId msg
  | .closeExternally state => ¬ (state ≠ .ok ∧ layer.layerState = .connecting) → layer.hasData = true →
    layer.q12RecvTasksQueue = []
  | _ => True

def Event.produced : Event → Prop
  | .pull msg => Produced msg
  | _ => True

section Produced

variable {msg : Message}

theorem other_type {type own : MqttType} {P Q : Prop} (same : type = own) (plain : own ≠ .publish) (other : own ≠ .suback) :
    (type = .publish → P) ∧ (type = .suback → Q) :=
  ⟨fun publish => absurd (same.symm.trans publish) plain,fun suback => absurd (same.symm.trans suback) other⟩

/-- What the parser delivers has the parts that its type calls for. -/
theorem produced_complete (produced : Produced msg) :
    (msg.common.type = .publish → msg.publish.topicName.isSome = true) ∧
      (msg.common.type = .suback → msg.suback.topics.isSome = true) := by
  obtain ⟨chunks,localState,localState',parser,rest,nonempty,delivered⟩ := produced
  have cut : Cut chunks.flatten chunks := ⟨rfl,nonempty⟩
  obtain ⟨header,body,_,readable,_,_,_,rfl⟩ := run_ok cut delivered
  have matching := readable.matching
  rw [decoded_common]
  cases body with
  | publish topic id payload => exact ⟨fun _ => rfl,fun other => absurd (matching.1.symm.trans other) MqttType.noConfusion⟩
  | suback id status => exact ⟨fun other => absurd (matching.symm.trans other) MqttType.noConfusion,fun _ => rfl⟩
  | connect body => exact other_type matching MqttType.noConfusion MqttType.noConfusion
  | connack unused returnCode => exact other_type matching MqttType.noConfusion MqttType.noConfusion
  | subscribe id name qos => exact other_type matching MqttType.noConfusion MqttType.noConfusion
  | reply id =>
    rcases matching with type | type | type | type <;> exact other_type type MqttType.noConfusion MqttType.noConfusion
  | empty => rcases matching with type | type <;> exact other_type type MqttType.noConfusion MqttType.noConfusion

end Produced

section Settled

variable {effects more : List Effect} {layer : LogicLayer} {task : Task} {state : XiState} {msg : Message}

@[simp] theorem settledBy_nil : settledBy [] = [] := rfl

@[simp] theorem settledBy_append : settledBy (effects ++ more) = settledBy effects ++ settledBy more := by
  unfold settledBy
  rw [observe_append,List.map_append]

theorem settledBy_cons (effect : Effect) :
    settledBy (effect :: effects) = ((Effect.handled effect).map Prod.snd).toList ++ settledBy effects := by
  cases handled : effect.handled <;> simp [settledBy,handled]

@[simp] theorem settledBy_freeData : settledBy task.freeData = [] := by
  unfold Task.freeData
  split <;> rfl

@[simp] theorem settledBy_free : settledBy task.free = [] := by
  rw [Task.free,settledBy_append,settledBy_freeData]
  rfl

@[simp] theorem settledBy_callback : settledBy (task.deferUsersCallback state) = [] := by
  unfold Task.deferUsersCallback
  split <;> rfl

theorem settledBy_freeTasks (queue : List Task) : settledBy (LogicLayer.freeTasks queue) = [] := by
  induction queue with
  | nil => rfl
  | cons task queue ih =>
    unfold LogicLayer.freeTasks at ih ⊢
    rw [List.flatMap_cons,settledBy_append,settledBy_free,ih]
    rfl

theorem settledBy_freeHandlers (handlers : List SubscribeData) : settledBy (LogicLayer.freeHandlers handlers) = [] := by
  induction handlers with
  | nil => rfl
  | cons data handlers ih => exact ih

theorem callTopicHandler_settles (topic : msg.publish.topicName.isSome = true) :
    settledBy (callTopicHandler layer msg).effects = [msg] ∧ (callTopicHandler layer msg).fault = false := by
  obtain ⟨topic,same⟩ := Option.isSome_iff_exists.mp topic
  unfold callTopicHandler
  rw [same]
  simp only
  split <;> exact ⟨rfl,rfl⟩

end Settled

section Empty

/-! A task that holds no message frees none, and does not get one from the coroutine. -/

variable (layer : LogicLayer) (allocs : Allocations) (task : Task) (state : XiState) (msg : Option Message)

theorem executeQ0_silent : settledBy (layer.executeQ0 task state none).effects = [] := by
  unfold LogicLayer.executeQ0
  split
  · unfold doMqttConnect
    repeat' split
    all_goals first | contradiction | simp [settledBy_cons,Effect.handled,freeMessage,Outcome.abort]
  · unfold doMqttPublishQ0
    repeat' split
    all_goals first | contradiction | simp [settledBy_cons,Effect.handled,Outcome.abort]
  · unfold doMqttKeepaliveTask
    repeat' split
    all_goals first | contradiction | simp [settledBy_cons,Effect.handled,freeMessage,Outcome.abort]
  · unfold doShutdown
    repeat' split
    all_goals first | contradiction | simp [settledBy_cons,Effect.handled,freeMessage]
  · rfl

theorem executeQ0_keeps : ∀ result, (layer.executeQ0 task state msg).task = some result →
    result.msg = task.msg ∧ result.qos = task.qos ∧ result.scenario = task.scenario := by
  unfold LogicLayer.executeQ0
  split
  · unfold doMqttConnect connectReply Outcome.abort
    repeat' split
    all_goals
      intro result same
      cases same
    all_goals exact ⟨rfl,rfl,rfl⟩
  · unfold doMqttPublishQ0 Outcome.abort
    repeat' split
    all_goals
      intro result same
      cases same
    all_goals exact ⟨rfl,rfl,rfl⟩
  · unfold doMqttKeepaliveTask Outcome.abort
    repeat' split
    all_goals
      intro result same
      cases same
    all_goals exact ⟨rfl,rfl,rfl⟩
  · unfold doShutdown
    repeat' split
    all_goals
      intro result same
      cases same
    all_goals exact ⟨rfl,rfl,rfl⟩
  · intro result same
    cases same
    exact ⟨rfl,rfl,rfl⟩

theorem doMqttConnectTimeout_silent : settledBy (doMqttConnectTimeout layer task).effects = [] ∧
    ∀ result, (doMqttConnectTimeout layer task).task = some result → result = task := by
  unfold doMqttConnectTimeout
  split
  · refine ⟨?_,fun result same => absurd same.symm (Option.some_ne_none result)⟩
    rw [settledBy_append,settledBy_free]
    rfl
  · refine ⟨rfl,fun result same => ?_⟩
    cases same
    rfl

theorem publishQ1Send_silent (dup : Nat) : settledBy (publishQ1Send task dup).effects = [] := by
  unfold publishQ1Send publishQ1Error
  repeat' split
  all_goals simp [settledBy_cons,Effect.handled,freeMessage,Outcome.abort]

theorem subscribeSend_silent (dup : Nat) : settledBy (subscribeSend allocs task dup).effects = [] := by
  unfold subscribeSend subscribeError
  repeat' split
  all_goals simp [settledBy_cons,Effect.handled,freeMessage,Outcome.abort]

theorem executeQ12_silent : settledBy (layer.executeQ12 allocs task state none).effects = [] := by
  unfold LogicLayer.executeQ12
  split
  · unfold doMqttPublishQ1 publishQ1Reply publishQ1Error
    repeat' split
    all_goals
      first
      | contradiction
      | exact publishQ1Send_silent ..
      | simp [freeMessage,Outcome.abort]
  · unfold doMqttSubscribe subscribeReply subscribeError
    repeat' split
    all_goals
      first
      | contradiction
      | exact subscribeSend_silent ..
      | simp [freeMessage,Outcome.abort]
  · rfl

theorem publishQ1Send_msg (dup : Nat) : ∀ result, (publishQ1Send task dup).task = some result → result.msg = task.msg := by
  unfold publishQ1Send publishQ1Error Outcome.abort
  repeat' split
  all_goals
    intro result same
    cases same
  all_goals rfl

theorem subscribeSend_msg (dup : Nat) :
    ∀ result, (subscribeSend allocs task dup).task = some result → result.msg = task.msg := by
  unfold subscribeSend subscribeError Outcome.abort
  repeat' split
  all_goals
    intro result same
    cases same
  all_goals rfl

theorem publishQ1Reply_msg : ∀ result, (publishQ1Reply task state msg).task = some result → result.msg = task.msg := by
  unfold publishQ1Reply publishQ1Error Outcome.abort
  repeat' split
  all_goals
    intro result same
    cases same
  all_goals rfl

theorem subscribeReply_msg :
    ∀ result, (subscribeReply layer allocs task state msg).task = some result → result.msg = task.msg := by
  unfold subscribeReply subscribeSuback subscribeError Outcome.abort
  simp only
  repeat' split
  all_goals
    intro result same
    cases same
  all_goals rfl

theorem executeQ12_msg :
    ∀ result, (layer.executeQ12 allocs task state msg).task = some result → result.msg = task.msg := by
  unfold LogicLayer.executeQ12
  split
  · unfold doMqttPublishQ1 Outcome.abort
    repeat' split
    all_goals
      intro result same
      first
      | cases same; rfl
      | exact publishQ1Send_msg task _ result same
      | exact publishQ1Send_msg {task with timeout := none} _ result same
      | exact publishQ1Reply_msg {task with timeout := none} _ _ result same
  · unfold doMqttSubscribe subscribeError Outcome.abort
    repeat' split
    all_goals
      intro result same
      first
      | cases same; done
      | cases same; rfl
      | exact subscribeSend_msg allocs task _ result same
      | exact subscribeSend_msg allocs {task with timeout := none} _ result same
      | exact subscribeReply_msg layer allocs {task with timeout := none} _ _ result same
  · intro result same
    cases same
    rfl

end Empty

section Carries

variable {received : List Message} {layer : LogicLayer} {current : Option Task} {queue : List Task} {task : Task}
  {allocs : Allocations} {effects : List Effect} {more : List Message}

/-- A QoS 0 task holds no message. -/
structure Task.Basic (task : Task) : Prop where
  msg : task.msg = none
  qos : task.qos = .atMostOnce
  scenario : task.scenario ≠ .subscribe

/-- A task as it is queued at QoS 0. -/
def Task.Fresh (task : Task) : Prop :=
  task.cs = .start ∧ task.Basic ∧
    (task.scenario = .connect ∨ task.scenario = .keepalive ∨ task.scenario = .shutdown ∨
      (task.scenario = .publish ∧ ∃ data, task.data = some (.publish data)))

/-- A queued task of QoS 1 or 2 has its data and no message. -/
def Task.Plain (task : Task) : Prop :=
  task.msg = none ∧ (task.scenario = .subscribe → ∃ data, task.data = some (.subscribe data))

/-- A receive task waits for the confirmation of its PUBACK, with its message. -/
def Task.Holds (task : Task) : Prop :=
  task.cs = .sent ∧ ∃ msg, task.msg = some msg ∧ msg.publish.topicName.isSome = true

/-- Every message that was received is settled or held, and tasks that hold none have none. -/
structure CarriesIn (received : List Message) (layer : LogicLayer) (current : Option Task) (queue : List Task) : Prop where
  current : ∀ task, current = some task → task.Basic
  queue : ∀ task ∈ queue, task.Fresh
  q12 : ∀ task ∈ layer.q12TasksQueue, task.Plain
  copies : ∀ task ∈ layer.copyOfQ12UnackedMessagesQueue, task.Plain
  recv : ∀ task ∈ layer.q12RecvTasksQueue, task.Holds
  addrs : (layer.q12RecvTasksQueue.map Task.addr).Nodup
  bound : ∀ task ∈ layer.q12RecvTasksQueue, task.addr < layer.nextAddr
  once : received.Perm (layer.settled ++ layer.held)

def Carries (received : List Message) (layer : LogicLayer) : Prop := HoldsQ0 (CarriesIn received) layer

theorem Task.Basic.resumed (basic : task.Basic) {state : XiState} {msg : Option Message} {result : Task}
    (same : (layer.executeQ0 task state msg).task = some result) : result.Basic := by
  obtain ⟨msg,qos,scenario⟩ := executeQ0_keeps layer task state msg result same
  exact ⟨msg.trans basic.msg,qos.trans basic.qos,scenario ▸ basic.scenario⟩

theorem CarriesIn.perform (carries : CarriesIn received layer current queue) (settles : settledBy effects = more) :
    CarriesIn (received ++ more) (layer.perform effects) current queue where
  current := carries.current
  queue := carries.queue
  q12 := by
    rw [LogicLayer.perform_q12TasksQueue]
    exact carries.q12
  copies := by
    rw [LogicLayer.perform_copyOfQ12UnackedMessagesQueue]
    exact carries.copies
  recv := by
    rw [LogicLayer.perform_q12RecvTasksQueue]
    exact carries.recv
  addrs := by
    rw [LogicLayer.perform_q12RecvTasksQueue]
    exact carries.addrs
  bound := by
    rw [LogicLayer.perform_q12RecvTasksQueue,LogicLayer.perform_nextAddr]
    exact carries.bound
  once := by
    have settled : (layer.perform effects).settled = layer.settled ++ more := by
      unfold LogicLayer.settled
      rw [LogicLayer.perform_effects,settledBy_append,settles]
    have held : (layer.perform effects).held = layer.held := by
      unfold LogicLayer.held
      rw [LogicLayer.perform_q12RecvTasksQueue]
    rw [settled,held,List.append_assoc]
    refine (carries.once.append_right more).trans ?_
    rw [List.append_assoc]
    exact List.perm_append_comm.append_left _

theorem CarriesIn.silent (carries : CarriesIn received layer current queue) (settles : settledBy effects = []) :
    CarriesIn received (layer.perform effects) current queue := by
  have performed := carries.perform settles
  rwa [List.append_nil] at performed

theorem CarriesIn.retask (carries : CarriesIn received layer current queue) {result : Option Task}
    (empty : ∀ task, result = some task → task.Basic) : CarriesIn received layer result queue :=
  {carries with current := empty}

theorem CarriesIn.failIf (carries : CarriesIn received layer current queue) (fault : Bool) :
    CarriesIn received (layer.failIf fault) current queue := {carries with}

theorem stable_carries : StableQ0 (CarriesIn received) where
  blind := fun _ _ _ _ _ carries => {carries with}
  rotate := by
    intro layer task queue carries _ _
    refine {carries with queue := fun other member => carries.queue other ?_}
    rcases List.mem_append.mp member with member | member
    · exact List.mem_cons_of_mem task member
    · rw [List.mem_singleton.mp member]
      exact List.mem_cons_self ..
  start := by
    intro layer task queue carries _
    have empty := (carries.queue task (List.mem_cons_self ..)).2.1
    have popped : CarriesIn received layer none queue :=
      {carries with queue := fun other member => carries.queue other (List.mem_cons_of_mem task member)}
    rw [empty.msg]
    exact ((popped.silent (executeQ0_silent layer task .ok)).failIf _).retask fun _ same => empty.resumed same

theorem Carries.perform (carries : Carries received layer) (settles : settledBy effects = more) :
    Carries (received ++ more) (layer.perform effects) := by
  unfold Carries HoldsQ0
  rw [LogicLayer.perform_currentQ0Task,LogicLayer.perform_q0TasksQueue]
  exact CarriesIn.perform carries settles

theorem Carries.silent (carries : Carries received layer) (settles : settledBy effects = []) :
    Carries received (layer.perform effects) := by
  have performed := carries.perform settles
  rwa [List.append_nil] at performed

/-- The current task is resumed without a message. -/
theorem Carries.resumeQ0 (carries : Carries received layer) (basic : task.Basic) (state : XiState)
    {msg : Option Message} (without : msg = none) : Carries received (layer.resumeQ0 task state msg) := by
  rw [without]
  refine finishQ0_holds stable_carries ?_
  exact ((CarriesIn.silent carries (executeQ0_silent layer task state)).failIf _).retask fun _ same => basic.resumed same

/-- A queued task is resumed, and frees what it is given. -/
theorem Carries.resumeQ12With (carries : Carries received layer) {state : XiState} {msg : Option Message}
    (plain : ∀ result, (layer.executeQ12 allocs task state msg).task = some result → result.Plain)
    (settles : settledBy (layer.executeQ12 allocs task state msg).effects = more) :
    Carries (received ++ more) (layer.resumeQ12 allocs task state msg) := by
  have replaced : Carries received {layer with
      q12TasksQueue := replaceTask task.addr (layer.executeQ12 allocs task state msg).task layer.q12TasksQueue} := by
    refine {carries with q12 := fun other member => ?_}
    rcases mem_replaceTask member with ⟨member,_⟩ | same
    · exact carries.q12 other member
    · exact plain other same
  exact CarriesIn.failIf (replaced.perform settles) _

theorem Carries.resumeQ12 (carries : Carries received layer) (plain : task.Plain) (state : XiState)
    {msg : Option Message} (without : msg = none) : Carries received (layer.resumeQ12 allocs task state msg) := by
  rw [without]
  have kept : ∀ result, (layer.executeQ12 allocs task state none).task = some result → result.Plain := by
    intro result same
    have job := executeQ12_sameJob layer allocs task state none result same
    refine ⟨(executeQ12_msg layer allocs task state none result same).trans plain.1,fun subscribe => ?_⟩
    rw [job.data]
    exact plain.2 (job.scenario.symm.trans subscribe)
  have resumed := carries.resumeQ12With kept (executeQ12_silent layer allocs task state)
  rwa [List.append_nil] at resumed

/-- The message of a receive task, and those of the others. -/
theorem held_perm (carries : CarriesIn received layer current queue) (member : task ∈ layer.q12RecvTasksQueue)
    {msg : Message} (own : task.msg = some msg) :
    layer.held.Perm (msg :: (layer.q12RecvTasksQueue.filter (·.addr ≠ task.addr)).filterMap Task.msg) := by
  have nodup : layer.q12RecvTasksQueue.Nodup := carries.addrs.of_map _
  have others : layer.q12RecvTasksQueue.filter (·.addr ≠ task.addr) = layer.q12RecvTasksQueue.erase task := by
    rw [nodup.erase_eq_filter]
    refine List.filter_congr fun other listed => ?_
    by_cases same : other = task
    · rw [same]
      simp
    · have apart : other.addr ≠ task.addr := fun clash =>
        same (List.inj_on_of_nodup_map carries.addrs listed member clash)
      rw [decide_eq_true apart]
      exact (bne_iff_ne.mpr same).symm
  rw [others]
  have split := (List.perm_cons_erase member).filterMap Task.msg
  rwa [List.filterMap_cons_some own] at split

theorem Carries.runTask (carries : Carries received layer) (plain : task.Plain) (fresh : task.qos = .atMostOnce → task.Fresh) :
    Carries received (layer.runTask allocs task) := by
  unfold LogicLayer.runTask
  split
  · rename_i qos
    refine queueQ0Task_holds stable_carries ?_
    refine {carries with queue := fun other member => ?_}
    unfold enqueue at member
    split at member
    · rcases List.mem_append.mp member with member | member
      · exact carries.queue other member
      · rw [List.mem_singleton.mp member]
        exact fresh qos
    · rcases List.mem_cons.mp member with rfl | member
      · exact fresh qos
      · exact carries.queue other member
  · unfold LogicLayer.queueQ12Task
    simp only
    have queued : Carries received {layer with
        lastMsgId := layer.lastMsgId + 1
        q12TasksQueue := layer.q12TasksQueue ++ [{task with msgId := layer.lastMsgId + 1}]} := by
      refine {carries with q12 := fun other member => ?_}
      rcases List.mem_append.mp member with member | member
      · exact carries.q12 other member
      · rw [List.mem_singleton.mp member]
        exact plain
    split
    · have numbered : ({task with msgId := layer.lastMsgId + 1} : Task).Plain := plain
      exact queued.resumeQ12 numbered .ok plain.1
    · exact queued

theorem Carries.push (carries : Carries received layer) (plain : task.Plain) (fresh : task.qos = .atMostOnce → task.Fresh) :
    Carries received (layer.push allocs task .ok) := by
  unfold LogicLayer.push
  split
  · exact carries.silent settledBy_free
  rw [if_neg (by decide)]
  split
  · rename_i publish qos
    refine Carries.runTask (carries.silent settledBy_freeData) ⟨plain.1,fun other => ?_⟩ fun other => ?_
    · exact absurd (publish.symm.trans other) Scenario.noConfusion
    · exact absurd (qos.symm.trans other) Qos.noConfusion
  · split
    · exact carries.silent settledBy_free
    · exact carries.runTask plain fresh
  · exact carries.runTask plain fresh

theorem Carries.next (carries : Carries received layer) : Carries received {layer with nextAddr := layer.nextAddr + 1} :=
  {carries with bound := fun task member => (carries.bound task member).trans (Nat.lt_succ_self _)}

theorem Request.make_plain (addr : Nat) (request : Request) : (request.make addr).Plain := by
  cases request with
  | publish topic data qos retain callback => exact ⟨rfl,fun other => absurd other Scenario.noConfusion⟩
  | subscribe topic qos handler session => exact ⟨rfl,fun _ => ⟨_,rfl⟩⟩
  | shutdown => exact ⟨rfl,fun other => absurd other Scenario.noConfusion⟩

theorem Request.make_fresh (addr : Nat) (request : Request) :
    (request.make addr).qos = .atMostOnce → (request.make addr).Fresh := by
  cases request with
  | publish topic data qos retain callback =>
    exact fun q0 => ⟨rfl,⟨rfl,q0,Scenario.noConfusion⟩,.inr (.inr (.inr ⟨rfl,_,rfl⟩))⟩
  | subscribe topic qos handler session => exact fun other => absurd other Qos.noConfusion
  | shutdown => exact fun _ => ⟨rfl,⟨rfl,rfl,Scenario.noConfusion⟩,.inr (.inr (.inl rfl))⟩

theorem Carries.erase (carries : Carries received layer) (entry : UInt16 × MqttType) :
    Carries received {layer with sending := layer.sending.erase entry} := {carries with}

/-- A receive task hears of its PUBACK. -/
theorem Carries.resumeRecv (carries : Carries received layer) (works : layer.working)
    (member : task ∈ layer.q12RecvTasksQueue) (written : Bool) :
    Carries received (layer.resumeRecv task (if written then .written else .failedWriting) task.msg) := by
  obtain ⟨sent,msg,own,topic⟩ := carries.recv task member
  have only : ∀ other ∈ layer.q12RecvTasksQueue, other.addr = task.addr → other = task :=
    fun other listed same => List.inj_on_of_nodup_map carries.addrs listed member same
  cases written with
  | false =>
    rw [if_neg Bool.false_ne_true,resumeRecv_failed works sent task.msg only]
    refine {carries with once := ?_}
    have settled : settledBy (layer.effects ++ [.send (fillWithPubackData task.msgId)]) = layer.settled := by
      rw [settledBy_append]
      exact List.append_nil _
    change received.Perm (settledBy (layer.effects ++ _) ++ layer.held)
    rw [settled]
    exact carries.once
  | true =>
    rw [if_pos rfl,own]
    have moved : HandledBy layer task msg _ := resumeRecv_written works sent topic
    have beside : BesideQ12 layer _ := beside_resumeRecv .written (some msg) ⟨task,member,rfl⟩
    have same : Undisturbed layer _ := Undisturbed.resumeRecv task .written (some msg)
    have kept : ∀ other ∈ (layer.resumeRecv task .written (some msg)).q12RecvTasksQueue, other ∈ layer.q12RecvTasksQueue := by
      rw [moved.queue]
      exact fun other listed => List.mem_of_mem_filter listed
    unfold Carries HoldsQ0
    rw [same.currentQ0Task,same.q0TasksQueue]
    refine ⟨carries.current,carries.queue,?_,?_,fun other listed => carries.recv other (kept other listed),?_,?_,?_⟩
    · rw [beside.q12TasksQueue]
      exact carries.q12
    · rw [beside.copies]
      exact carries.copies
    · rw [moved.queue]
      exact (List.filter_sublist.map _).nodup carries.addrs
    · rw [moved.nextAddr]
      exact fun other listed => carries.bound other (kept other listed)
    · have settled : (layer.resumeRecv task .written (some msg)).settled = layer.settled ++ [msg] := by
        unfold LogicLayer.settled settledBy
        rw [moved.handled,List.map_append]
        rfl
      unfold LogicLayer.held
      rw [settled,moved.queue,List.append_assoc]
      exact carries.once.trans ((held_perm carries member own).append_left _)

theorem Carries.confirmed (carries : Carries received layer) (msgId : UInt16) (type : MqttType) (written : Bool) :
    Carries received (layer.confirmed allocs msgId type written) := by
  have erased := carries.erase (msgId,type)
  unfold LogicLayer.confirmed LogicLayer.confirm
  split
  · exact erased
  rename_i working
  have works : layer.working := working_iff.mpr (eq_false_of_ne_true working)
  split
  · split
    · rename_i task current
      have basic := carries.current task current
      exact erased.resumeQ0 basic _ basic.msg
    · exact erased
  split
  · split
    · rename_i found
      exact erased.resumeRecv works (List.mem_of_find?_eq_some found) written
    · exact erased
  · split
    · rename_i found
      have plain := carries.q12 _ (List.mem_of_find?_eq_some found)
      exact erased.resumeQ12 plain _ plain.1
    · exact erased
  · exact erased

theorem Carries.taskTimeout (carries : Carries received layer) (addr : Nat) :
    Carries received (layer.taskTimeout allocs addr) := by
  unfold LogicLayer.taskTimeout
  split
  · rename_i task found
    obtain ⟨current,_⟩ := Option.filter_eq_some_iff.mp found
    have basic : ({task with timeout := none} : Task).Basic :=
      have ⟨msg,qos,scenario⟩ := carries.current task current
      ⟨msg,qos,scenario⟩
    simp only
    split
    · refine finishQ0_holds stable_carries ?_
      obtain ⟨silent,kept⟩ := doMqttConnectTimeout_silent layer {task with timeout := none}
      exact ((CarriesIn.silent carries silent).failIf _).retask fun result same => kept result same ▸ basic
    · exact carries.resumeQ0 basic .timeout rfl
  · split
    · rename_i task found
      have plain := carries.q12 task (List.mem_of_find?_eq_some found)
      split
      · have calmed : ({task with timeout := none} : Task).Plain := plain
        exact carries.resumeQ12 calmed _ rfl
      · exact carries
    · exact carries

theorem Carries.postConnect (carries : Carries received layer) : Carries received (layer.postConnect allocs) := by
  have resent (queue : List Task) (plain : ∀ task ∈ queue, task.Plain) :
      Carries received (queue.foldl (LogicLayer.setNewContextAndCallResend allocs) layer) := by
    induction queue generalizing layer with
    | nil => exact carries
    | cons task queue ih =>
      have head : ({task with context := true} : Task).Plain := plain task (List.mem_cons_self ..)
      refine ih ?_ fun other member => plain other (List.mem_cons_of_mem task member)
      unfold LogicLayer.setNewContextAndCallResend
      split
      · exact carries.resumeQ12 head .resend head.1
      · exact carries
  unfold LogicLayer.postConnect
  split
  · exact (resent _ carries.q12).silent rfl
  · exact carries

theorem Carries.init (carries : Carries received layer) (connection : ConnectionData) :
    Carries received (layer.init connection) := by
  unfold LogicLayer.init
  refine Carries.silent ?_ rfl
  simp only
  split
  · exact {carries with
      q12 := carries.copies
      copies := fun _ member => absurd member List.not_mem_nil}
  · have freed : Carries received {layer with
        hasData := true,connection := {connection with connectionState := .opening}} := {carries with}
    have silent : settledBy (LogicLayer.freeHandlers layer.copyOfHandlersForTopics ++
        LogicLayer.freeTasks layer.copyOfQ12UnackedMessagesQueue) = [] := by
      rw [settledBy_append,settledBy_freeHandlers,settledBy_freeTasks]
      rfl
    have emptied := freed.silent silent
    exact {emptied with copies := fun _ member => absurd member List.not_mem_nil}

theorem Carries.freeCurrentTask (carries : Carries received layer) : Carries received layer.freeCurrentTask := by
  unfold LogicLayer.freeCurrentTask
  split
  · exact carries
  · rename_i task _
    have freed := carries.silent (@settledBy_free task)
    exact {freed with current := fun _ none => absurd none.symm (Option.some_ne_none _)}

theorem Carries.unregister (carries : Carries received layer) : Carries received {layer with handlersForTopics := []} :=
  {carries with}

theorem Carries.saveSession (carries : Carries received layer) : Carries received layer.saveSession := by
  have saved : Carries received {layer with
      copyOfQ12UnackedMessagesQueue :=
        (layer.q12TasksQueue.filter (·.sessionState = .store)).map ({· with context := false})
      q12TasksQueue := layer.q12TasksQueue.filter (·.sessionState ≠ .store)} := by
    refine {carries with
      q12 := fun task member => carries.q12 task (List.mem_of_mem_filter member)
      copies := fun task member => ?_}
    obtain ⟨kept,listed,rfl⟩ := List.mem_map.mp member
    exact carries.q12 kept (List.mem_of_mem_filter listed)
  unfold LogicLayer.saveSession
  simp only
  split <;> exact {saved with}

theorem Carries.releaseSession (carries : Carries received layer) (empty : layer.q12RecvTasksQueue = []) :
    Carries received layer.releaseSession ∧ layer.releaseSession.q12RecvTasksQueue = [] := by
  have none : layer.q12RecvTasksQueue.map LogicLayer.cancelTaskTimeout = layer.q12RecvTasksQueue := by
    rw [empty]
    rfl
  have calmed : Carries received {layer with
      q12TasksQueue := layer.q12TasksQueue.map LogicLayer.cancelTaskTimeout
      q12RecvTasksQueue := layer.q12RecvTasksQueue.map LogicLayer.cancelTaskTimeout} := by
    rw [none]
    refine {carries with q12 := fun task member => ?_}
    obtain ⟨kept,listed,rfl⟩ := List.mem_map.mp member
    exact carries.q12 kept listed
  have saved (layer : LogicLayer) : layer.saveSession.q12RecvTasksQueue = layer.q12RecvTasksQueue := by
    unfold LogicLayer.saveSession
    simp only
    split <;> rfl
  unfold LogicLayer.releaseSession
  simp only
  split
  · exact ⟨(calmed.saveSession.silent (settledBy_freeHandlers _)).unregister,
      LogicLayer.perform_q12RecvTasksQueue.trans ((saved _).trans (none.trans empty))⟩
  · exact ⟨(calmed.silent (settledBy_freeHandlers _)).unregister,LogicLayer.perform_q12RecvTasksQueue.trans (none.trans empty)⟩

/-- The QoS 0 tasks leave the receive tasks alone. -/
theorem stable_recv (queue : List Task) : StableQ0 fun layer _ _ => layer.q12RecvTasksQueue = queue where
  blind := fun _ _ _ _ _ same => same
  rotate := fun _ _ _ same _ _ => same
  start := fun _ _ _ same _ => LogicLayer.perform_q12RecvTasksQueue.trans same

theorem Carries.stopCurrentTask (carries : Carries received layer) (empty : layer.q12RecvTasksQueue = []) :
    Carries received layer.stopCurrentTask ∧ layer.stopCurrentTask.q12RecvTasksQueue = [] := by
  unfold LogicLayer.stopCurrentTask
  split
  · exact ⟨carries,empty⟩
  · rename_i task current
    have basic := carries.current task current
    have same : (layer.resumeQ0 task .timeout task.msg).q12RecvTasksQueue = [] :=
      finishQ0_holds (stable_recv []) (LogicLayer.perform_q12RecvTasksQueue.trans empty)
    refine ⟨(carries.resumeQ0 basic .timeout basic.msg).freeCurrentTask,?_⟩
    unfold LogicLayer.freeCurrentTask
    split
    · exact same
    · exact LogicLayer.perform_q12RecvTasksQueue.trans same

theorem Carries.freeLayerData (carries : Carries received layer) (empty : layer.q12RecvTasksQueue = []) :
    Carries received layer.freeLayerData := by
  have silent : settledBy (LogicLayer.freeTasks layer.q12TasksQueue ++ LogicLayer.freeTasks layer.q12RecvTasksQueue ++
      LogicLayer.freeTasks layer.q0TasksQueue) = [] := by
    simp only [settledBy_append,settledBy_freeTasks,List.append_nil]
  have freed := carries.silent silent
  have none := fun (task : Task) (member : task ∈ ([] : List Task)) => List.not_mem_nil member
  refine {freed with
    queue := fun task member => (none task member).elim
    q12 := fun task member => (none task member).elim
    recv := fun task member => (none task member).elim
    addrs := List.nodup_nil
    bound := fun task member => (none task member).elim
    once := ?_}
  have held (effects : List Effect) : (layer.perform effects).held = [] := by
    unfold LogicLayer.held
    rw [LogicLayer.perform_q12RecvTasksQueue,empty]
    rfl
  have kept := freed.once
  rw [held] at kept
  exact kept

theorem Carries.closeExternally (carries : Carries received layer) (state : XiState)
    (empty : ¬ (state ≠ .ok ∧ layer.layerState = .connecting) → layer.hasData = true → layer.q12RecvTasksQueue = []) :
    Carries received (layer.closeExternally state) := by
  unfold LogicLayer.closeExternally
  split
  · exact carries.silent rfl
  rename_i past
  split
  · exact carries.silent rfl
  · rename_i data
    have empty := empty past (by simpa using data)
    obtain ⟨released,empty⟩ := carries.releaseSession empty
    obtain ⟨stopped,empty⟩ := released.stopCurrentTask empty
    exact (stopped.freeLayerData empty).silent rfl

theorem keepalive_plain (addr : Nat) : (keepaliveTask addr).Plain ∧ (keepaliveTask addr).Fresh :=
  ⟨⟨rfl,fun other => absurd other Scenario.noConfusion⟩,rfl,⟨rfl,rfl,Scenario.noConfusion⟩,.inr (.inl rfl)⟩

theorem connect_plain (addr : Nat) : (connectTask addr).Plain ∧ (connectTask addr).Fresh :=
  ⟨⟨rfl,fun other => absurd other Scenario.noConfusion⟩,rfl,⟨rfl,rfl,Scenario.noConfusion⟩,.inl rfl⟩

/-- What every call but a pull keeps. -/
theorem Carries.step (carries : Carries received layer) (running : layer.fault = false) {event : Event}
    (solicited : event.solicited layer) (other : Routing.arrived event = []) :
    Carries received (Logic.step allocs layer event) := by
  unfold Logic.step
  rw [if_neg (by rw [running]; exact Bool.false_ne_true)]
  cases event with
  | push request => exact carries.next.push (request.make_plain _) (request.make_fresh _)
  | confirm msgId type written => exact carries.confirmed msgId type written
  | pull msg => exact absurd other (List.cons_ne_nil msg [])
  | pullFailed state =>
    simp only [LogicLayer.pullFailed]
    split
    · exact carries
    split
    · exact carries.silent rfl
    · exact carries
  | taskTimeout addr => exact carries.taskTimeout addr
  | orphanTimeout addr =>
    simp only [LogicLayer.orphanTimeout]
    split
    · exact {carries with}
    · exact carries
  | keepaliveOnce =>
    have dropped : Carries received {layer with keepaliveEvent := false} := {carries with}
    simp only [LogicLayer.doMqttKeepaliveOnce]
    split
    · split
      · obtain ⟨plain,fresh⟩ := keepalive_plain layer.nextAddr
        exact dropped.next.push plain fun _ => fresh
      · exact dropped
    · exact carries
  | init connection => exact carries.init connection
  | connect state =>
    simp only [LogicLayer.connect]
    split
    · exact carries.silent rfl
    · obtain ⟨plain,fresh⟩ := connect_plain layer.nextAddr
      exact carries.next.push plain fun _ => fresh
  | postConnect => exact carries.postConnect
  | close state =>
    simp only [LogicLayer.close]
    split <;> exact carries.silent rfl
  | closeExternally state => exact carries.closeExternally state solicited
  | setConnectionState state => exact {carries with}
  | subscriptionCall =>
    simp only [LogicLayer.runSubscriptionCall]
    split
    · exact carries
    · rename_i call calls _
      have dropped : Carries received {layer with calls := calls} := {carries with}
      split
      · exact dropped.silent rfl
      · exact dropped

end Carries

section Sound

variable {received : List Message} {layer : LogicLayer} {current : Option Task} {queue : List Task} {task : Task}
  {allocs : Allocations} {effects : List Effect} {msg : Message}

/-- A time event that is scheduled once does no harm. -/
theorem perform_sound (single : effects.count .scheduleKeepalive + layer.keepaliveEvent.toNat ≤ 1) :
    (layer.perform effects).fault = layer.fault := by
  induction effects generalizing layer with
  | nil => rfl
  | cons effect effects ih =>
    rw [LogicLayer.perform_cons]
    by_cases schedules : effect = .scheduleKeepalive
    · subst schedules
      rw [List.count_cons_self] at single
      have idle : layer.keepaliveEvent = false := by
        cases event : layer.keepaliveEvent with
        | false => rfl
        | true =>
          rw [event,Bool.toNat_true] at single
          omega
      refine (ih ?_).trans ?_
      · change _ + 1 ≤ 1
        omega
      · change (layer.fault || layer.keepaliveEvent) = layer.fault
        rw [idle,Bool.or_false]
    · rw [List.count_cons_of_ne schedules] at single
      cases effect <;> first | exact absurd rfl schedules | exact ih single

theorem not_schedules (quiet : effects.all Effect.quiet = true) : Effect.scheduleKeepalive ∉ effects :=
  fun member => absurd (List.all_eq_true.mp quiet _ member) Bool.false_ne_true

/-- Nothing has failed, and nothing will when the queued tasks start. -/
structure SoundIn (layer : LogicLayer) (current : Option Task) (queue : List Task) : Prop where
  fault : layer.fault = false
  queue : ∀ task ∈ queue, task.Fresh

theorem executeQ0_fresh (fresh : task.Fresh) (state : XiState) : (layer.executeQ0 task state none).fault = false ∧
    Effect.scheduleKeepalive ∉ (layer.executeQ0 task state none).effects := by
  obtain ⟨start,_,scenario⟩ := fresh
  unfold LogicLayer.executeQ0
  rcases scenario with scenario | scenario | scenario | ⟨scenario,data,own⟩
  · rw [scenario]
    simp only [doMqttConnect,start]
    split
    · exact ⟨rfl,by simp [freeMessage]⟩
    split
    · exact ⟨rfl,not_schedules (free_quiet task)⟩
    · exact ⟨rfl,by simp⟩
  · rw [scenario]
    simp only [doMqttKeepaliveTask,start]
    split
    · exact ⟨rfl,by simp [freeMessage]⟩
    · exact ⟨rfl,by simp⟩
  · rw [scenario]
    simp only [doShutdown,start]
    split
    · exact ⟨rfl,by simp [freeMessage]⟩
    · exact ⟨rfl,by simp⟩
  · rw [scenario]
    simp only [doMqttPublishQ0,start,own]
    split
    · rename_i some
      exact absurd some Bool.false_ne_true
    split
    · exact ⟨rfl,List.not_mem_nil⟩
    split
    · refine ⟨rfl,fun member => ?_⟩
      rw [List.append_assoc] at member
      rcases List.mem_append.mp member with member | member
      · exact absurd (List.mem_singleton.mp member) Effect.noConfusion
      · refine not_schedules ?_ member
        rw [List.all_append,deferUsersCallback_quiet,free_quiet]
        rfl
    · exact ⟨rfl,by simp⟩

theorem stable_sound : StableQ0 SoundIn where
  blind := fun _ _ _ _ _ sound => ⟨sound.fault,sound.queue⟩
  rotate := by
    intro layer task queue sound _ _
    refine ⟨sound.fault,fun other member => sound.queue other ?_⟩
    rcases List.mem_append.mp member with member | member
    · exact List.mem_cons_of_mem task member
    · rw [List.mem_singleton.mp member]
      exact List.mem_cons_self ..
  start := by
    intro layer task queue sound _
    have fresh := sound.queue task (List.mem_cons_self ..)
    rw [fresh.2.1.msg]
    obtain ⟨running,calm⟩ := @executeQ0_fresh layer task fresh .ok
    refine ⟨?_,fun other member => sound.queue other (List.mem_cons_of_mem task member)⟩
    unfold LogicLayer.failIf
    rw [running,Bool.or_false,perform_sound,sound.fault]
    rw [List.count_eq_zero.mpr calm,Nat.zero_add]
    exact Bool.toNat_le _

/-- A task that is given the reply that it waits for ends with it, and the message is freed. -/
structure Replied (layer : LogicLayer) (msg : Message) (outcome : Outcome) : Prop where
  ends : outcome.task = none
  fault : outcome.fault = false
  settles : settledBy outcome.effects = [msg]
  single : (layer.keepaliveEvent = true → ¬ layer.schedules msg) →
    outcome.effects.count .scheduleKeepalive + layer.keepaliveEvent.toNat ≤ 1

theorem count_quiet (quiet : effects.all Effect.quiet = true) : effects.count .scheduleKeepalive = 0 :=
  List.count_eq_zero.mpr (not_schedules quiet)

theorem executeQ0_replied (works : layer.working) (basic : task.Basic) (awaits : task.Awaits msg.common.type)
    (changed : Task) (own : changed = {task with msg := some msg}) :
    Replied layer msg (layer.executeQ0 changed .ok (some msg)) := by
  obtain ⟨reply,kind⟩ := awaits
  have scenario : changed.scenario = task.scenario := by rw [own]
  have cs : changed.cs = .reply := by rw [own]; exact reply
  have data : layer.hasData = true := works.2
  have free : changed.free.count .scheduleKeepalive = 0 := count_quiet (free_quiet changed)
  have most := Bool.toNat_le layer.keepaliveEvent
  unfold LogicLayer.executeQ0
  rw [scenario]
  cases named : task.scenario with
  | connect =>
    rw [named] at kind
    have kind : msg.common.type = .connack := kind
    unfold doMqttConnect
    rw [working_iff.mp works]
    simp only [Bool.false_eq_true,if_false,cs]
    unfold connectReply
    rw [if_pos kind]
    split
    · rename_i code
      refine ⟨rfl,rfl,by split <;> simp [settledBy_cons,Effect.handled],fun once => ?_⟩
      by_cases timeout : 0 < layer.connection.keepaliveTimeout
      · have idle : layer.keepaliveEvent = false :=
          eq_false_of_ne_true fun event => once event (.inl ⟨kind,code,timeout⟩)
        simp [timeout,free,idle]
      · simp [timeout,free,most]
    · refine ⟨rfl,rfl,by simp [settledBy_cons,Effect.handled],fun _ => ?_⟩
      simp [free,most]
  | keepalive =>
    rw [named] at kind
    have kind : msg.common.type = .pingresp := kind
    unfold doMqttKeepaliveTask
    rw [data]
    simp only [Bool.not_true,Bool.false_eq_true,if_false,cs,reduceCtorEq,ne_eq,not_true_eq_false]
    rw [if_pos kind]
    refine ⟨rfl,rfl,by split <;> simp [settledBy_cons,Effect.handled],fun once => ?_⟩
    by_cases opened : layer.connection.connectionState = .opened
    · have idle : layer.keepaliveEvent = false := eq_false_of_ne_true fun event => once event (.inr ⟨kind,opened⟩)
      simp [opened,free,idle]
    · simp [opened,free,most]
  | publish =>
    rw [named] at kind
    exact absurd (basic.qos.symm.trans kind.1) Qos.noConfusion
  | subscribe => exact absurd named basic.scenario
  | puback =>
    rw [named] at kind
    exact kind.elim
  | shutdown =>
    rw [named] at kind
    exact kind.elim

theorem subscribeSuback_ends (layer : LogicLayer) (allocs : Allocations) (task : Task) (data : SubscribeData) (status : UInt8) :
    (subscribeSuback layer allocs task data status).task = none ∧
      (subscribeSuback layer allocs task data status).fault = false ∧
      settledBy (subscribeSuback layer allocs task data status).effects = [] := by
  unfold subscribeSuback subscribeError
  repeat' split
  all_goals simp [settledBy_cons,Effect.handled,freeMessage]

theorem executeQ12_replied (works : layer.working) (plain : task.Plain) (context : task.context = true)
    (awaits : task.Awaits msg.common.type) (positive : 0 < getMessageId msg)
    (complete : msg.common.type = .suback → msg.suback.topics.isSome = true)
    (changed : Task) (own : changed = {task with msg := some msg}) :
    Replied layer msg (layer.executeQ12 allocs changed .ok (some msg)) := by
  obtain ⟨reply,kind⟩ := awaits
  have scenario : changed.scenario = task.scenario := by rw [own]
  have qos : changed.qos = task.qos := by rw [own]
  have cs : changed.cs = .reply := by rw [own]; exact reply
  have attached : changed.context = true := by rw [own]; exact context
  have data : changed.data = task.data := by rw [own]
  suffices ended : (layer.executeQ12 allocs changed .ok (some msg)).task = none ∧
      (layer.executeQ12 allocs changed .ok (some msg)).fault = false ∧
      settledBy (layer.executeQ12 allocs changed .ok (some msg)).effects = [msg] by
    refine ⟨ended.1,ended.2.1,ended.2.2,fun _ => ?_⟩
    rw [count_quiet (executeQ12_quiet ..),Nat.zero_add]
    exact Bool.toNat_le _
  unfold LogicLayer.executeQ12
  rw [scenario,qos]
  cases named : task.scenario with
  | publish =>
    rw [named] at kind
    have kind : task.qos = .atLeastOnce ∧ msg.common.type = .puback := kind
    rw [kind.1]
    simp only [doMqttPublishQ1,attached,working_iff.mp works,cs,publishQ1Reply,kind.2]
    simp [settledBy_cons,Effect.handled]
  | subscribe =>
    rw [named] at kind
    have kind : msg.common.type = .suback := kind
    obtain ⟨topic,listed⟩ := Option.isSome_iff_exists.mp (complete kind)
    obtain ⟨subscription,mine⟩ := plain.2 named
    have mine : changed.data = some (.subscribe subscription) := data.trans mine
    have ends (task : Task) := subscribeSuback_ends layer allocs task subscription topic.payload
    simp only [doMqttSubscribe,attached,works.2,cs,subscribeReply,kind,listed,mine]
    simp only [reduceCtorEq,Bool.not_true,Bool.false_eq_true,if_false,ne_eq,not_true_eq_false]
    refine ⟨(ends _).1,(ends _).2.1,?_⟩
    rw [settledBy_append,(ends _).2.2]
    rfl
  | connect =>
    rw [named] at kind
    unfold getMessageId at positive
    rw [show msg.common.type = .connack from kind] at positive
    exact absurd positive (lt_irrefl 0)
  | keepalive =>
    rw [named] at kind
    unfold getMessageId at positive
    rw [show msg.common.type = .pingresp from kind] at positive
    exact absurd positive (lt_irrefl 0)
  | puback =>
    rw [named] at kind
    exact kind.elim
  | shutdown =>
    rw [named] at kind
    exact kind.elim

/-- What a layer in which nothing has failed keeps when a message comes. -/
def Kept (received : List Message) (after : LogicLayer) : Prop := Carries received after ∧ after.fault = false

theorem Carries.pullPublish (carries : Carries received layer) (running : layer.fault = false) (works : layer.working)
    (publish : msg.common.type = .publish) (topic : msg.publish.topicName.isSome = true)
    (new : msg.common.qos = 0 ∨ (msg.common.qos = 1 ∧ findTask msg.publish.messageId layer.q12RecvTasksQueue = none)) :
    Kept (received ++ [msg]) (layer.onPublishRecieved msg) := by
  rcases new with qos | ⟨qos,unknown⟩
  · unfold LogicLayer.onPublishRecieved
    rw [qos]
    simp only
    obtain ⟨settles,sound⟩ := callTopicHandler_settles topic
    refine ⟨CarriesIn.failIf (carries.perform settles) _,?_⟩
    unfold LogicLayer.failIf
    rw [sound,Bool.or_false,LogicLayer.perform_fault (List.all_eq_true.mp (callTopicHandler_quiet layer msg))]
    exact running
  · have after := step_arrival works running publish qos carries.bound unknown
    have same : Logic.step {} layer (.pull msg) = layer.onPublishRecieved msg := by
      unfold Logic.step
      rw [if_neg (by rw [running]; exact Bool.false_ne_true)]
      change layer.pull _ msg = _
      unfold LogicLayer.pull
      rw [if_neg (by rw [working_iff.mp works]; exact Bool.false_ne_true),if_pos publish]
    rw [← same,after]
    refine ⟨?_,running⟩
    refine {carries with recv := ?_,addrs := ?_,bound := ?_,once := ?_}
    · intro task member
      rcases List.mem_append.mp member with member | member
      · exact carries.recv task member
      · rw [List.mem_singleton.mp member]
        exact ⟨rfl,msg,rfl,topic⟩
    · change ((layer.q12RecvTasksQueue ++ [pubackTask layer.nextAddr msg]).map Task.addr).Nodup
      rw [List.map_append,List.map_singleton]
      refine List.nodup_append.mpr ⟨carries.addrs,List.nodup_singleton _,?_⟩
      intro addr listed other same clash
      obtain ⟨task,member,rfl⟩ := List.mem_map.mp listed
      rw [List.mem_singleton.mp same] at clash
      exact absurd clash (carries.bound task member).ne
    · intro task member
      rcases List.mem_append.mp member with member | member
      · exact (carries.bound task member).trans (Nat.lt_succ_self _)
      · rw [List.mem_singleton.mp member]
        exact Nat.lt_succ_self _
    · have settled : settledBy (layer.effects ++ [.send (fillWithPubackData msg.publish.messageId)]) = layer.settled := by
        rw [settledBy_append]
        exact List.append_nil _
      change (received ++ [msg]).Perm (settledBy (layer.effects ++ _) ++
        (layer.q12RecvTasksQueue ++ [pubackTask layer.nextAddr msg]).filterMap Task.msg)
      rw [settled,List.filterMap_append,← List.append_assoc]
      exact carries.once.append_right _

theorem Task.Awaits.type {type : MqttType} (awaits : task.Awaits type) :
    type = .connack ∨ type = .puback ∨ type = .suback ∨ type = .pingresp := by
  obtain ⟨_,kind⟩ := awaits
  cases named : task.scenario <;> rw [named] at kind
  · exact .inl kind
  · exact .inr (.inl kind.2)
  · exact kind.elim
  · exact .inr (.inr (.inl kind))
  · exact .inr (.inr (.inr kind))
  · exact kind.elim

theorem Carries.pull (carries : Carries received layer) (running : layer.fault = false)
    (solicited : (Event.pull msg).solicited layer) (produced : Produced msg) :
    Kept (received ++ [msg]) (layer.pull allocs msg) := by
  obtain ⟨topic,suback⟩ := produced_complete produced
  have freed : Kept (received ++ [msg]) (layer.perform [.freeMessage msg]) := ⟨carries.perform rfl,running⟩
  unfold LogicLayer.pull
  split
  · exact freed
  rename_i working
  have works : layer.working := working_iff.mpr (eq_false_of_ne_true working)
  have solicited := solicited works
  split
  · rename_i publish
    rw [if_pos publish] at solicited
    exact carries.pullPublish running works publish (topic publish) solicited
  rename_i plain
  rw [if_neg plain] at solicited
  unfold LogicLayer.recipient at solicited
  rw [if_neg working,if_neg plain] at solicited
  split
  · rename_i positive
    rw [if_pos positive] at solicited
    split
    · rename_i kind
      rw [kind] at solicited
      split
      · rename_i task found
        simp only [found] at solicited
        rcases solicited.1.type with type | type | type | type <;>
          exact absurd (type ▸ kind) MessageClass.noConfusion
      · exact freed
    · rename_i kind
      rw [kind] at solicited
      split
      · rename_i task found
        simp only [found] at solicited
        obtain ⟨awaits,context,_⟩ := solicited
        have replied : Replied layer msg (layer.executeQ12 allocs {task with msg := some msg} .ok (some msg)) :=
          executeQ12_replied works (carries.q12 task (List.mem_of_find?_eq_some found)) context awaits positive suback _ rfl
        refine ⟨carries.resumeQ12With (fun result same => ?_) replied.settles,?_⟩
        · rw [replied.ends] at same
          exact absurd same.symm (Option.some_ne_none _)
        · rw [resumeQ12_fault,replied.fault,running]
          rfl
      · exact freed
    · exact freed
  · rename_i zero
    rw [if_neg zero] at solicited
    split
    · rename_i task current
      simp only [current] at solicited
      obtain ⟨awaits,_,once⟩ := solicited
      have replied : Replied layer msg (layer.executeQ0 {task with msg := some msg} .ok (some msg)) :=
        executeQ0_replied works (carries.current task current) awaits _ rfl
      constructor
      · refine finishQ0_holds stable_carries ?_
        refine ((CarriesIn.perform carries replied.settles).failIf _).retask fun result same => ?_
        rw [replied.ends] at same
        exact absurd same.symm (Option.some_ne_none _)
      · have sound : HoldsQ0 SoundIn (layer.resumeQ0 {task with msg := some msg} .ok (some msg)) := by
          refine finishQ0_holds stable_sound ⟨?_,carries.queue⟩
          unfold LogicLayer.failIf
          rw [replied.fault,Bool.or_false,perform_sound (replied.single once)]
          exact running
        exact sound.fault
    · rename_i none
      simp only [none] at solicited
      exact absurd solicited zero

end Sound

section Runs

variable {routing : Routing}

/-- What every call keeps. -/
structure Routing.Sound (routing : Routing) : Prop where
  safe : routing.Safe
  carries : Carries routing.received routing.layer

theorem routing_start : Routing.Sound {} where
  safe := ⟨rfl,fun _ member => absurd member List.not_mem_nil,List.Perm.nil⟩
  carries := {
    current := fun _ none => absurd none.symm (Option.some_ne_none _)
    queue := fun _ member => absurd member List.not_mem_nil
    q12 := fun _ member => absurd member List.not_mem_nil
    copies := fun _ member => absurd member List.not_mem_nil
    recv := fun _ member => absurd member List.not_mem_nil
    addrs := List.nodup_nil
    bound := fun _ member => absurd member List.not_mem_nil
    once := List.Perm.nil}

theorem recipient_awaits {layer : LogicLayer} {msg : Message} (solicited : (Event.pull msg).solicited layer) {task : Task}
    (found : layer.recipient msg = some task) : task.Awaits msg.common.type := by
  have found' := found
  unfold LogicLayer.recipient at found'
  split at found'
  · exact absurd found'.symm (Option.some_ne_none task)
  rename_i working
  split at found'
  · exact absurd found'.symm (Option.some_ne_none task)
  rename_i plain
  have solicited := solicited (working_iff.mpr (eq_false_of_ne_true working))
  rw [if_neg plain,found] at solicited
  exact solicited.1

theorem routing_step (sound : routing.Sound) (call : Allocations × Event) (produced : call.2.produced)
    (solicited : routing.layer.fault = false → call.2.solicited routing.layer) : (routing.step call).Sound := by
  unfold Routing.step
  split
  · exact sound
  rename_i running
  have running : routing.layer.fault = false := eq_false_of_ne_true running
  have solicited := solicited running
  obtain ⟨allocs,event⟩ := call
  by_cases silent : Routing.arrived event = []
  · have carries : Carries routing.received (stepWith routing.layer (allocs,event)) :=
      sound.carries.step running solicited silent
    simp only [silent,List.flatMap_nil,List.append_nil]
    exact ⟨⟨rfl,sound.safe.awaited,carries.once⟩,carries⟩
  · cases event with
    | pull msg =>
      have same : stepWith routing.layer (allocs,.pull msg) = routing.layer.pull allocs msg := by
        unfold stepWith Logic.step
        rw [if_neg (by rw [running]; exact Bool.false_ne_true)]
      have kept : Kept (routing.received ++ [msg]) (routing.layer.pull allocs msg) :=
        sound.carries.pull running solicited produced
      obtain ⟨carries,fault⟩ := kept
      rw [← same] at carries fault
      refine ⟨⟨?_,?_,carries.once⟩,carries⟩
      · change (true && _) = false
        rw [fault]
        rfl
      · intro pair member
        rcases List.mem_append.mp member with member | member
        · exact sound.safe.awaited pair member
        · obtain ⟨other,listed,tagged⟩ := List.mem_flatMap.mp member
          rw [List.mem_singleton.mp listed] at tagged
          obtain ⟨task,found,rfl⟩ := List.mem_map.mp tagged
          exact recipient_awaits solicited (Option.mem_toList.mp found)
    | _ => exact absurd rfl silent

/-- As long as every message comes when it is asked for, none brings the layer down, none goes to a task that does not
wait for it, and none is lost or freed twice. -/
theorem routing_safe {events : List Event}
    (solicited : Runs.Admissible Routing.step (fun routing call => call.2.produced ∧
      (routing.layer.fault = false → call.2.solicited routing.layer)) {} (allocated events)) :
    Runs.Always Routing.step Routing.Safe {} (allocated events) := by
  have always := Runs.always_of_step (I := Routing.Sound)
    (fun _ call sound may => routing_step sound call may.1 may.2) routing_start solicited
  exact always.mono fun _ sound => sound.safe

def receivedConnack : Message := {common := ⟨Common.ofBits 0 0 0 .connack,2⟩}

def receivedPingresp : Message := {common := ⟨Common.ofBits 0 0 0 .pingresp,0⟩}

theorem connack_produced : Produced receivedConnack :=
  ⟨[[0x20,0x02,0x00,0x00]],.ok,.ok,_,[],by decide,rfl⟩

theorem pingresp_produced : Produced receivedPingresp := ⟨[[0xd0,0x00]],.ok,.ok,_,[],by decide,rfl⟩

/-- A handshake up to its CONNACK. -/
def connecting : List Event := [.init {keepaliveTimeout := 10},.connect .ok,.confirm 0 .connect true]

theorem routing_safe_connack :
    Runs.Always Routing.step Routing.Safe {} (allocated (connecting ++ [.pull receivedConnack])) := by
  have current : ((Runs.final Routing.step {} (allocated connecting)).layer.recipient receivedConnack).any fun task =>
      task.cs = .reply && task.scenario = .connect && task.context := by decide +kernel
  have idle : (Runs.final Routing.step {} (allocated connecting)).layer.keepaliveEvent = false := by decide +kernel
  refine routing_safe ⟨⟨trivial,fun _ => trivial⟩,⟨trivial,fun _ => trivial⟩,⟨trivial,fun _ => trivial⟩,
    ⟨connack_produced,fun _ _ => ?_⟩,trivial⟩
  change if receivedConnack.common.type = .publish then _ else
    match (Runs.final Routing.step {} (allocated connecting)).layer.recipient receivedConnack with
    | some task => task.Awaits receivedConnack.common.type ∧ task.context = true ∧ (_ = true → ¬ LogicLayer.schedules _ _)
    | none => 0 < getMessageId receivedConnack
  rw [if_neg (by decide)]
  split
  · rename_i task found
    rw [found] at current
    simp only [Option.any_some,Bool.and_eq_true,decide_eq_true_eq] at current
    obtain ⟨⟨reply,connect⟩,context⟩ := current
    refine ⟨⟨reply,?_⟩,context,fun event => absurd (idle.symm.trans event) Bool.false_ne_true⟩
    rw [connect]
    rfl
  · rename_i none
    rw [none] at current
    exact absurd current Bool.false_ne_true

/-- A PINGRESP that nobody waits for meets no task. -/
theorem routing_unsafe : Produced receivedConnack ∧ Produced receivedPingresp ∧
    ¬ Runs.Always Routing.step Routing.Safe {}
      (allocated (connecting ++ [.pull receivedConnack,.pull receivedPingresp])) := by
  refine ⟨connack_produced,pingresp_produced,fun always => ?_⟩
  have runs := always.last.runs
  revert runs
  decide +kernel

end Runs

end XivelyClient.Mqtt.Logic
