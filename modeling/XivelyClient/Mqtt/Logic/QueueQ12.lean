import XivelyClient.Mqtt.Logic.QueueQ0

/-! What one call of the layer does to the queue of QoS 1 and 2 tasks, and what leaves that queue and its
tasks alone. -/
namespace XivelyClient.Mqtt.Logic

namespace Effect

/-- The task or the block of memory that an effect is about. -/
def about : Effect → Option Nat
  | .usersCallback task _ _ => some task
  | .registerHandler data => some data.block
  | .subscriptionCall data _ _ => some data.block
  | .freeData block => some block
  | .freeTask addr => some addr
  | .started addr => some addr
  | _ => none

/-- The two ends of the beginning of a connection. -/
def phase : Effect → Option Bool
  | .initPrev => some false
  | .postConnectPrev => some true
  | _ => none

/-- What only the queued tasks and the calls that begin a connection do. -/
def reserved : Effect → Bool
  | .initPrev | .postConnectPrev | .registerHandler _ | .subscriptionCall _ _ _ => true
  | _ => false

/-- What a task may do that is not queued for QoS 1 or 2. -/
def ofTask (addr : Nat) (effect : Effect) : Bool :=
  !effect.reserved && (effect.about = none || effect.about = some addr)

end Effect

section Own

/-! A task beside the queue speaks of no other. -/

variable (layer : LogicLayer) (task : Task) (state : XiState) (msg : Option Message)

@[simp] theorem ofTask_freeMessage (addr : Nat) : (freeMessage msg).all (Effect.ofTask addr) = true := by
  cases msg <;> rfl

@[simp] theorem ofTask_freeData : task.freeData.all (Effect.ofTask task.addr) = true := by
  unfold Task.freeData
  split <;> simp [Effect.ofTask,Effect.reserved,Effect.about]

@[simp] theorem ofTask_free : task.free.all (Effect.ofTask task.addr) = true := by
  rw [Task.free,List.all_append,ofTask_freeData]
  simp [Effect.ofTask,Effect.reserved,Effect.about]

@[simp] theorem ofTask_callback : (task.deferUsersCallback state).all (Effect.ofTask task.addr) = true := by
  unfold Task.deferUsersCallback
  split <;> simp [Effect.ofTask,Effect.reserved,Effect.about]

theorem executeQ0_own : (layer.executeQ0 task state msg).effects.all (Effect.ofTask task.addr) = true := by
  unfold LogicLayer.executeQ0
  split
  · unfold doMqttConnect connectReply
    repeat' split
    all_goals simp [Outcome.abort,Effect.ofTask,Effect.reserved,Effect.about]
  · unfold doMqttPublishQ0
    repeat' split
    all_goals simp [Outcome.abort,Effect.ofTask,Effect.reserved,Effect.about]
  · unfold doMqttKeepaliveTask
    repeat' split
    all_goals simp [Outcome.abort,Effect.ofTask,Effect.reserved,Effect.about]
  · unfold doShutdown
    repeat' split
    all_goals simp [Effect.ofTask,Effect.reserved,Effect.about]
  · rfl

theorem callTopicHandler_own (msg : Message) (addr : Nat) :
    (callTopicHandler layer msg).effects.all (Effect.ofTask addr) = true := by
  unfold callTopicHandler
  repeat' split
  all_goals rfl

theorem onPublishQ1Recieved_own :
    (onPublishQ1Recieved layer task state msg).effects.all (Effect.ofTask task.addr) = true := by
  unfold onPublishQ1Recieved
  repeat' split
  all_goals simp [Outcome.abort,callTopicHandler_own,Effect.ofTask,Effect.reserved,Effect.about]

end Own

section Beside

variable {before between layer after : LogicLayer} {current : Option Task} {queue : List Task} {task : Task} {addr : Nat}

/-- The effects about a task. -/
def mentions (addr : Nat) (effects : List Effect) : List Effect := effects.filter (·.about = some addr)

@[simp] theorem mentions_append (effects more : List Effect) :
    mentions addr (effects ++ more) = mentions addr effects ++ mentions addr more := List.filter_append ..

theorem mentions_other {other : Nat} (away : other ≠ addr) {effects : List Effect}
    (own : effects.all (Effect.ofTask other) = true) : mentions addr effects = [] := by
  refine List.filter_eq_nil_iff.mpr fun effect member about => ?_
  have about : effect.about = some addr := of_decide_eq_true about
  have own := List.all_eq_true.mp own effect member
  simp [Effect.ofTask,about,away.symm] at own

theorem not_reserved_of_own {other : Nat} {effects : List Effect} (own : effects.all (Effect.ofTask other) = true) :
    effects.all (!·.reserved) = true := by
  refine List.all_eq_true.mpr fun effect member => ?_
  exact (Bool.and_eq_true_iff.mp (List.all_eq_true.mp own effect member)).1

/-- No task beside the queue has the address. -/
structure Elsewhere (addr : Nat) (layer : LogicLayer) (current : Option Task) (queue : List Task) : Prop where
  current : ∀ task, current = some task → task.addr ≠ addr
  queue : ∀ task ∈ queue, task.addr ≠ addr
  recv : ∀ task ∈ layer.q12RecvTasksQueue, task.addr ≠ addr

/-- What is still as before when something was done beside the queue of QoS 1 and 2 tasks. Of an address that was given
out already, or is still free, nobody has heard. -/
structure BesideIn (before layer : LogicLayer) (current : Option Task) (queue : List Task) : Prop where
  q12TasksQueue : layer.q12TasksQueue = before.q12TasksQueue
  copies : layer.copyOfQ12UnackedMessagesQueue = before.copyOfQ12UnackedMessagesQueue
  handlers : layer.handlersForTopics = before.handlersForTopics
  copyOfHandlers : layer.copyOfHandlersForTopics = before.copyOfHandlersForTopics
  lastMsgId : layer.lastMsgId = before.lastMsgId
  copyOfLastMsgId : layer.copyOfLastMsgId = before.copyOfLastMsgId
  hasData : layer.hasData = before.hasData
  request : layer.connection.toConnectionRequest = before.connection.toConnectionRequest
  calls : layer.calls = before.calls
  sending : ∀ entry ∈ before.sending, entry.1 ≠ 0 → classMsgTypeSending entry.2 = .toServer → entry ∈ layer.sending
  nextAddr : before.nextAddr ≤ layer.nextAddr
  fault : before.fault = true → layer.fault = true
  effects : ∃ more, layer.effects = before.effects ++ more ∧ more.all (!·.reserved) = true
  elsewhere : ∀ addr, addr < before.nextAddr ∨ layer.nextAddr ≤ addr →
    Elsewhere addr before before.currentQ0Task before.q0TasksQueue →
    Elsewhere addr layer current queue ∧ mentions addr layer.effects = mentions addr before.effects

def BesideQ12 (before after : LogicLayer) : Prop := HoldsQ0 (BesideIn before) after

theorem perform_calls {effects : List Effect} (plain : effects.all (!·.reserved) = true) :
    (layer.perform effects).calls = layer.calls := by
  refine LogicLayer.perform_keeps LogicLayer.calls layer effects fun layer effect member => ?_
  have plain := List.all_eq_true.mp plain effect member
  cases effect <;> first | rfl | exact absurd plain Bool.false_ne_true

theorem perform_handlers {effects : List Effect} (plain : effects.all (!·.reserved) = true) :
    (layer.perform effects).handlersForTopics = layer.handlersForTopics := by
  refine LogicLayer.perform_keeps LogicLayer.handlersForTopics layer effects fun layer effect member => ?_
  have plain := List.all_eq_true.mp plain effect member
  cases effect <;> first | rfl | exact absurd plain Bool.false_ne_true

theorem perform_fault_mono {effects : List Effect} (fault : layer.fault = true) : (layer.perform effects).fault = true := by
  induction effects generalizing layer with
  | nil => exact fault
  | cons effect effects ih =>
    rw [LogicLayer.perform_cons]
    apply ih
    cases effect <;> first | exact fault | exact Bool.or_eq_true_iff.mpr (.inl fault)

theorem BesideIn.refl (layer : LogicLayer) : BesideQ12 layer layer where
  q12TasksQueue := rfl
  copies := rfl
  handlers := rfl
  copyOfHandlers := rfl
  lastMsgId := rfl
  copyOfLastMsgId := rfl
  hasData := rfl
  request := rfl
  calls := rfl
  sending := fun _ member _ _ => member
  nextAddr := le_rfl
  fault := id
  effects := ⟨[],(List.append_nil _).symm,rfl⟩
  elsewhere := fun _ _ away => ⟨away,rfl⟩

theorem BesideIn.trans (first : BesideQ12 before between) (second : BesideIn between layer current queue) :
    BesideIn before layer current queue where
  q12TasksQueue := second.q12TasksQueue.trans first.q12TasksQueue
  copies := second.copies.trans first.copies
  handlers := second.handlers.trans first.handlers
  copyOfHandlers := second.copyOfHandlers.trans first.copyOfHandlers
  lastMsgId := second.lastMsgId.trans first.lastMsgId
  copyOfLastMsgId := second.copyOfLastMsgId.trans first.copyOfLastMsgId
  hasData := second.hasData.trans first.hasData
  request := second.request.trans first.request
  calls := second.calls.trans first.calls
  sending := fun entry member positive toServer =>
    second.sending entry (first.sending entry member positive toServer) positive toServer
  nextAddr := first.nextAddr.trans second.nextAddr
  fault := fun fault => second.fault (first.fault fault)
  effects := by
    obtain ⟨more,same,plain⟩ := first.effects
    obtain ⟨more',same',plain'⟩ := second.effects
    refine ⟨more ++ more',?_,?_⟩
    · rw [same',same,List.append_assoc]
    · rw [List.all_append,plain,plain']
      rfl
  elsewhere := by
    intro addr old away
    obtain ⟨between,same⟩ := first.elsewhere addr (old.imp_right second.nextAddr.trans) away
    obtain ⟨after,same'⟩ := second.elsewhere addr (old.imp_left first.nextAddr.trans_lt') between
    exact ⟨after,same'.trans same⟩

theorem BesideIn.perform (beside : BesideIn before layer current queue) {effects : List Effect}
    (plain : effects.all (!·.reserved) = true)
    (apart : ∀ addr, addr < before.nextAddr ∨ layer.nextAddr ≤ addr →
      Elsewhere addr before before.currentQ0Task before.q0TasksQueue → mentions addr effects = []) :
    BesideIn before (layer.perform effects) current queue where
  q12TasksQueue := LogicLayer.perform_q12TasksQueue.trans beside.q12TasksQueue
  copies := LogicLayer.perform_copyOfQ12UnackedMessagesQueue.trans beside.copies
  handlers := (perform_handlers plain).trans beside.handlers
  copyOfHandlers := LogicLayer.perform_copyOfHandlersForTopics.trans beside.copyOfHandlers
  lastMsgId := LogicLayer.perform_lastMsgId.trans beside.lastMsgId
  copyOfLastMsgId := LogicLayer.perform_copyOfLastMsgId.trans beside.copyOfLastMsgId
  hasData := LogicLayer.perform_hasData.trans beside.hasData
  request := LogicLayer.perform_request.trans beside.request
  calls := (perform_calls plain).trans beside.calls
  sending := by
    intro entry member positive toServer
    obtain ⟨more,same⟩ := @LogicLayer.perform_sending layer effects
    rw [same]
    exact List.mem_append_left more (beside.sending entry member positive toServer)
  nextAddr := beside.nextAddr.trans_eq LogicLayer.perform_nextAddr.symm
  fault := fun fault => perform_fault_mono (beside.fault fault)
  effects := by
    obtain ⟨more,same,plain'⟩ := beside.effects
    refine ⟨more ++ effects,?_,?_⟩
    · rw [LogicLayer.perform_effects,same,List.append_assoc]
    · rw [List.all_append,plain',plain]
      rfl
  elsewhere := by
    intro addr old away
    rw [LogicLayer.perform_nextAddr] at old
    obtain ⟨still,same⟩ := beside.elsewhere addr old away
    refine ⟨⟨still.current,still.queue,?_⟩,?_⟩
    · rw [LogicLayer.perform_q12RecvTasksQueue]
      exact still.recv
    · rw [LogicLayer.perform_effects,mentions_append,apart addr old away,List.append_nil,same]

theorem BesideIn.failIf (beside : BesideIn before layer current queue) (fault : Bool) :
    BesideIn before (layer.failIf fault) current queue :=
  {beside with
    fault := fun before => Bool.or_eq_true_iff.mpr (.inl (beside.fault before))
    elsewhere := fun addr old away =>
      have ⟨still,same⟩ := beside.elsewhere addr old away
      ⟨⟨still.current,still.queue,still.recv⟩,same⟩}

theorem BesideIn.retask (beside : BesideIn before layer (some task) queue) {result : Option Task}
    (own : ∀ changed, result = some changed → changed.addr = task.addr) : BesideIn before layer result queue :=
  {beside with
    elsewhere := fun addr old away =>
      have ⟨still,same⟩ := beside.elsewhere addr old away
      ⟨⟨fun changed taken => own changed taken ▸ still.current task rfl,still.queue,still.recv⟩,same⟩}

/-- A task beside the queue is resumed. -/
theorem BesideIn.resume (beside : BesideIn before layer (some task) queue) {outcome : Outcome}
    (own : outcome.effects.all (Effect.ofTask task.addr) = true)
    (addr : ∀ result, outcome.task = some result → result.addr = task.addr) :
    BesideIn before ((layer.perform outcome.effects).failIf outcome.fault) outcome.task queue := by
  refine ((beside.perform (not_reserved_of_own own) fun other old away => ?_).failIf _).retask addr
  exact mentions_other ((beside.elsewhere other old away).1.current task rfl) own

theorem stable_beside (before : LogicLayer) : StableQ0 (BesideIn before) where
  blind := fun _ _ _ _ _ beside => {beside with
    elsewhere := fun addr old away =>
      have ⟨still,same⟩ := beside.elsewhere addr old away
      ⟨⟨still.current,still.queue,still.recv⟩,same⟩}
  rotate := by
    intro layer task queue beside _ _
    refine {beside with elsewhere := fun addr old away => ?_}
    obtain ⟨away,same⟩ := beside.elsewhere addr old away
    refine ⟨⟨away.current,?_,away.recv⟩,same⟩
    intro other member
    apply away.queue
    rcases List.mem_append.mp member with member | member
    · exact List.mem_cons_of_mem task member
    · rw [List.mem_singleton.mp member]
      exact List.mem_cons_self ..
  start := by
    intro layer task queue beside _
    have popped : BesideIn before layer (some task) queue := by
      refine {beside with elsewhere := fun addr old away => ?_}
      obtain ⟨away,same⟩ := beside.elsewhere addr old away
      refine ⟨⟨?_,fun other member => away.queue other (List.mem_cons_of_mem task member),away.recv⟩,same⟩
      rintro _ ⟨⟩
      exact away.queue task (List.mem_cons_self ..)
    exact popped.resume (executeQ0_own ..) (executeQ0_command ..).addr

/-- The address was given out in between. -/
theorem ne_of_given {next next' : Nat} (old : addr < next ∨ next' ≤ addr) {given : Nat} (fresh : next ≤ given)
    (taken : given < next') : given ≠ addr := by
  omega

theorem BesideIn.enqueue (beside : BesideIn before layer current queue) (fresh : before.nextAddr ≤ task.addr)
    (taken : task.addr < layer.nextAddr) : BesideIn before layer current (enqueue task queue) := by
  refine {beside with elsewhere := fun addr old away => ?_}
  obtain ⟨still,same⟩ := beside.elsewhere addr old away
  have new : task.addr ≠ addr := ne_of_given old fresh taken
  refine ⟨⟨still.current,?_,still.recv⟩,same⟩
  intro other member
  unfold Logic.enqueue at member
  split at member
  · rcases List.mem_append.mp member with member | member
    · exact still.queue other member
    · rw [List.mem_singleton.mp member]
      exact new
  · rcases List.mem_cons.mp member with rfl | member
    · exact new
    · exact still.queue other member

theorem beside_next : BesideQ12 layer {layer with nextAddr := layer.nextAddr + 1} :=
  {BesideIn.refl layer with
    nextAddr := Nat.le_succ _
    elsewhere := fun _ _ away => ⟨⟨away.current,away.queue,away.recv⟩,rfl⟩}

/-- A task that is refused is freed. -/
theorem beside_refused {effects : List Effect} (own : effects.all (Effect.ofTask layer.nextAddr) = true) :
    BesideQ12 layer ({layer with nextAddr := layer.nextAddr + 1}.perform effects) := by
  unfold BesideQ12 HoldsQ0
  rw [LogicLayer.perform_currentQ0Task,LogicLayer.perform_q0TasksQueue]
  refine BesideIn.perform beside_next (not_reserved_of_own own) fun addr old _ => ?_
  exact mentions_other (ne_of_given old le_rfl (Nat.lt_succ_self _)) own

theorem beside_perform {effects : List Effect} (silent : ∀ addr, effects.all (Effect.ofTask addr) = true) :
    BesideQ12 layer (layer.perform effects) := by
  unfold BesideQ12 HoldsQ0
  rw [LogicLayer.perform_currentQ0Task,LogicLayer.perform_q0TasksQueue]
  exact BesideIn.perform (BesideIn.refl layer) (not_reserved_of_own (silent 0)) fun addr _ _ =>
    mentions_other (Nat.succ_ne_self addr) (silent (addr + 1))

theorem beside_resumeQ0 (beside : BesideQ12 before layer) (same : layer.currentQ0Task = some task) {changed : Task}
    (own : changed.addr = task.addr) (state : XiState) (msg : Option Message) :
    BesideQ12 before (layer.resumeQ0 changed state msg) := by
  unfold BesideQ12 HoldsQ0 at beside
  rw [same] at beside
  have retasked : BesideIn before layer (some changed) layer.q0TasksQueue := by
    apply beside.retask
    rintro _ ⟨⟩
    exact own
  exact finishQ0_holds (stable_beside before) (retasked.resume (executeQ0_own ..) (executeQ0_command ..).addr)

theorem onPublishQ1Recieved_addr (state : XiState) (msg : Option Message) :
    ∀ result, (onPublishQ1Recieved layer task state msg).task = some result → result.addr = task.addr := by
  have handled (msg : Message) : (callTopicHandler layer msg).task = none := by
    unfold callTopicHandler
    repeat' split
    all_goals rfl
  unfold onPublishQ1Recieved
  repeat' split
  all_goals
    intro result same
    first
    | cases same; rfl
    | exact absurd ((handled _).symm.trans same).symm (Option.some_ne_none result)

theorem mem_replaceTask {addr : Nat} {result : Option Task} {other : Task}
    (member : other ∈ replaceTask addr result queue) : (other ∈ queue ∧ other.addr ≠ addr) ∨ result = some other := by
  obtain ⟨task,member,same⟩ := List.mem_filterMap.mp member
  split at same
  · exact .inr same
  · rename_i away
    cases same
    exact .inl ⟨member,away⟩

theorem mem_replaceTask_of_ne {addr : Nat} {result : Option Task} {other : Task} (member : other ∈ queue)
    (away : other.addr ≠ addr) : other ∈ replaceTask addr result queue :=
  List.mem_filterMap.mpr ⟨other,member,if_neg away⟩

theorem beside_resumeRecv (state : XiState) (msg : Option Message)
    (known : ∃ other ∈ layer.q12RecvTasksQueue, other.addr = task.addr) :
    BesideQ12 layer (layer.resumeRecv task state msg) := by
  let outcome := onPublishQ1Recieved layer task state msg
  have replaced : BesideQ12 layer {layer with
      q12RecvTasksQueue := replaceTask task.addr outcome.task layer.q12RecvTasksQueue} := by
    refine {BesideIn.refl layer with elsewhere := fun addr _ away => ⟨⟨away.current,away.queue,?_⟩,rfl⟩}
    intro other member
    rcases mem_replaceTask member with ⟨member,_⟩ | same
    · exact away.recv other member
    · obtain ⟨listed,member,own⟩ := known
      rw [onPublishQ1Recieved_addr state msg other same,← own]
      exact away.recv listed member
  unfold LogicLayer.resumeRecv BesideQ12 HoldsQ0
  change BesideIn layer _ (LogicLayer.perform _ _).currentQ0Task (LogicLayer.perform _ _).q0TasksQueue
  rw [LogicLayer.perform_currentQ0Task,LogicLayer.perform_q0TasksQueue]
  have own := onPublishQ1Recieved_own layer task state msg
  refine (BesideIn.perform replaced (not_reserved_of_own own) fun addr _ away => mentions_other ?_ own).failIf _
  obtain ⟨listed,member,own⟩ := known
  rw [← own]
  exact away.recv listed member

theorem beside_addRecvTask (msg : Message) : BesideQ12 layer (layer.addRecvTask msg) := by
  unfold LogicLayer.addRecvTask
  simp only
  refine BesideIn.trans ?_ (beside_resumeRecv _ _ ⟨_,List.mem_append_right _ (List.mem_singleton_self _),rfl⟩)
  refine BesideIn.failIf ?_ _
  refine {BesideIn.refl layer with nextAddr := Nat.le_succ _,elsewhere := fun addr old away =>
    ⟨⟨away.current,away.queue,?_⟩,rfl⟩}
  intro other member
  rcases List.mem_append.mp member with member | member
  · exact away.recv other member
  · rw [List.mem_singleton.mp member]
    exact ne_of_given old le_rfl (Nat.lt_succ_self _)

theorem beside_onPublishRecieved (msg : Message) : BesideQ12 layer (layer.onPublishRecieved msg) := by
  unfold LogicLayer.onPublishRecieved
  split
  · exact BesideIn.failIf (beside_perform (callTopicHandler_own layer msg)) _
  · exact beside_addRecvTask msg
  · exact BesideIn.refl layer

theorem beside_erase {msgId : UInt16} {type : MqttType} (plain : msgId = 0 ∨ classMsgTypeSending type ≠ .toServer) :
    BesideQ12 layer {layer with sending := layer.sending.erase (msgId,type)} := by
  refine {BesideIn.refl layer with
    sending := ?_
    elsewhere := fun _ _ away => ⟨⟨away.current,away.queue,away.recv⟩,rfl⟩}
  intro entry member positive toServer
  refine (List.mem_erase_of_ne ?_).mpr member
  rintro rfl
  rcases plain with zero | other
  · exact positive zero
  · exact other toServer

end Beside

/-- The task that a request puts into the queue; a publish at QoS 2 has lost its data by then. -/
def Request.queued (addr : Nat) : Request → Task
  | .publish topic data .exactlyOnce retain callback =>
    {(Request.publish topic data .exactlyOnce retain callback).make addr with data := none}
  | request => request.make addr

theorem Request.queued_addr (addr : Nat) (request : Request) : (request.queued addr).addr = addr := by
  cases request with
  | publish topic data qos retain callback => cases qos <;> rfl
  | subscribe topic qos handler session => rfl
  | shutdown => rfl

/-- The calls seen from the queue of QoS 1 and 2 tasks. -/
inductive StepQ12 (allocs : Allocations) (layer : LogicLayer) : Event → LogicLayer → Prop
  | beside {event : Event} {after : LogicLayer} (same : BesideQ12 layer after) : StepQ12 allocs layer event after
  | push {request : Request} {base : LogicLayer} (q12 : request.atMostOnce = false) (works : layer.working)
    (same : BesideQ12 layer base) (next : layer.nextAddr < base.nextAddr) (operational : base.layerState = layer.layerState)
    (connection : base.connection = layer.connection) :
    StepQ12 allocs layer (.push request) (base.queueQ12Task allocs (request.queued layer.nextAddr))
  | confirm {msgId : UInt16} {type : MqttType} {written : Bool} {task : Task} (works : layer.working)
    (positive : msgId ≠ 0) (toServer : classMsgTypeSending type = .toServer)
    (found : findTask msgId layer.q12TasksQueue = some task) :
    StepQ12 allocs layer (.confirm msgId type written)
      ({layer with sending := layer.sending.erase (msgId,type)}.resumeQ12 allocs task
        (if written then .written else .failedWriting) task.msg)
  | unheard {msgId : UInt16} {type : MqttType} {written : Bool} (positive : msgId ≠ 0)
    (toServer : classMsgTypeSending type = .toServer)
    (past : ¬ layer.working ∨ findTask msgId layer.q12TasksQueue = none) :
    StepQ12 allocs layer (.confirm msgId type written) {layer with sending := layer.sending.erase (msgId,type)}
  | pull {msg : Message} {task : Task} (works : layer.working) (plain : msg.common.type ≠ .publish)
    (positive : 0 < getMessageId msg) (toServer : classMsgTypeReceiving msg.common.type = .toServer)
    (found : findTask (getMessageId msg) layer.q12TasksQueue = some task) :
    StepQ12 allocs layer (.pull msg) (layer.resumeQ12 allocs {task with msg := some msg} .ok (some msg))
  | timeout {addr : Nat} {task : Task} {state : XiState}
    (found : layer.q12TasksQueue.find? (·.addr = addr) = some task) (pending : task.timeout = some state) :
    StepQ12 allocs layer (.taskTimeout addr) (layer.resumeQ12 allocs {task with timeout := none} state none)
  | postConnect (data : layer.hasData = true) :
    StepQ12 allocs layer .postConnect
      ((layer.q12TasksQueue.foldl (LogicLayer.setNewContextAndCallResend allocs) layer).perform [.postConnectPrev])
  | init (connection : ConnectionData) : StepQ12 allocs layer (.init connection) (layer.init connection)
  | closeExternally {state : XiState} (past : ¬ (state ≠ .ok ∧ layer.layerState = .connecting))
    (data : layer.hasData = true) :
    StepQ12 allocs layer (.closeExternally state)
      (layer.releaseSession.stopCurrentTask.freeLayerData.perform [.closeExternallyNext state])
  | subscriptionCall : StepQ12 allocs layer .subscriptionCall layer.runSubscriptionCall

section Cases

variable {layer : LogicLayer} (allocs : Allocations)

theorem step_pushRequest12 (request : Request) :
    StepQ12 allocs layer (.push request) (layer.pushRequest allocs request) := by
  have own (task : Task) (addr : task.addr = layer.nextAddr) : task.free.all (Effect.ofTask layer.nextAddr) = true :=
    addr ▸ ofTask_free task
  unfold LogicLayer.pushRequest LogicLayer.push
  split
  · refine .beside (beside_refused (own _ ?_))
    cases request <;> rfl
  rename_i working
  have works : layer.working := working_iff.mpr (eq_false_of_ne_true working)
  rw [if_neg (by decide)]
  have queued (task : Task) (addr : task.addr = layer.nextAddr) :
      BesideQ12 layer (LogicLayer.queueQ0Task {layer with nextAddr := layer.nextAddr + 1} task) :=
    queueQ0Task_holds (stable_beside layer) (BesideIn.enqueue beside_next addr.ge (addr.trans_lt (Nat.lt_succ_self _)))
  cases request with
  | publish topic data qos retain callback =>
    cases qos with
    | atMostOnce => exact .beside (queued ((Request.publish topic data .atMostOnce retain callback).make layer.nextAddr) rfl)
    | atLeastOnce => exact .push rfl works beside_next (Nat.lt_succ_self _) rfl rfl
    | exactlyOnce =>
      let task := (Request.publish topic data .exactlyOnce retain callback).make layer.nextAddr
      have each : ∀ effect ∈ task.freeData, effect.quiet = true := List.all_eq_true.mp (freeData_quiet task)
      change StepQ12 allocs layer _ (LogicLayer.queueQ12Task _ allocs
        ((Request.publish topic data .exactlyOnce retain callback).queued layer.nextAddr))
      refine .push rfl works
        (beside_refused (ofTask_freeData task)) ?_ (LogicLayer.perform_layerState each) (LogicLayer.perform_connection each)
      rw [LogicLayer.perform_nextAddr]
      exact Nat.lt_succ_self _
  | subscribe topic qos handler session => exact .push rfl works beside_next (Nat.lt_succ_self _) rfl rfl
  | shutdown =>
    simp only [Request.make]
    split
    · exact .beside (beside_refused (own _ rfl))
    · exact .beside (queued (Request.shutdown.make layer.nextAddr) rfl)

theorem step_confirmed12 (msgId : UInt16) (type : MqttType) (written : Bool) :
    StepQ12 allocs layer (.confirm msgId type written) (layer.confirmed allocs msgId type written) := by
  unfold LogicLayer.confirmed LogicLayer.confirm
  by_cases server : msgId = 0 ∨ classMsgTypeSending type ≠ .toServer
  · have same : BesideQ12 layer _ := beside_erase server
    apply StepQ12.beside
    split
    · exact same
    split
    · split
      · exact beside_resumeQ0 same ‹_› rfl _ _
      · exact same
    · split
      · split
        · rename_i found
          exact BesideIn.trans same (beside_resumeRecv _ _ ⟨_,List.mem_of_find?_eq_some found,rfl⟩)
        · exact same
      · rename_i positive _ toServer
        exact absurd toServer (server.resolve_left positive)
      · exact same
  · obtain ⟨positive,toServer⟩ := not_or.mp server
    have toServer : classMsgTypeSending type = .toServer := not_not.mp toServer
    split
    · rename_i closed
      exact .unheard positive toServer (.inl (not_working_iff.mpr closed))
    rename_i working
    have works : layer.working := working_iff.mpr (eq_false_of_ne_true working)
    rw [toServer]
    simp only
    split
    · rename_i task found
      exact .confirm works positive toServer found
    · rename_i missing
      exact .unheard positive toServer (.inr missing)

theorem step_pull12 (msg : Message) : StepQ12 allocs layer (.pull msg) (layer.pull allocs msg) := by
  unfold LogicLayer.pull
  split
  · exact .beside (beside_perform fun _ => rfl)
  rename_i working
  have works : layer.working := working_iff.mpr (eq_false_of_ne_true working)
  split
  · exact .beside (beside_onPublishRecieved msg)
  rename_i plain
  split
  · rename_i positive
    split
    · split
      · rename_i found
        exact .beside (beside_resumeRecv _ _ ⟨_,List.mem_of_find?_eq_some found,rfl⟩)
      · exact .beside (beside_perform fun _ => rfl)
    · rename_i toServer
      split
      · exact .pull works plain positive toServer ‹_›
      · exact .beside (beside_perform fun _ => rfl)
    · exact .beside (beside_perform fun _ => rfl)
  · split
    · rename_i current
      refine .beside (beside_resumeQ0 (BesideIn.refl layer) current ?_ _ _)
      rfl
    · exact .beside (BesideIn.failIf (BesideIn.refl layer) true)

theorem step_taskTimeout12 (addr : Nat) : StepQ12 allocs layer (.taskTimeout addr) (layer.taskTimeout allocs addr) := by
  unfold LogicLayer.taskTimeout
  split
  · rename_i task found
    obtain ⟨current,_⟩ := Option.filter_eq_some_iff.mp found
    simp only
    split
    · rename_i connect
      have refl := BesideIn.refl layer
      unfold BesideQ12 HoldsQ0 at refl
      rw [current] at refl
      have retasked : BesideIn layer layer (some {task with timeout := none}) layer.q0TasksQueue := by
        apply refl.retask
        rintro _ ⟨⟩
        rfl
      refine .beside (finishQ0_holds (stable_beside layer) (retasked.resume ?_ ?_))
      · unfold doMqttConnectTimeout
        split <;> simp [Outcome.abort,Effect.ofTask,Effect.reserved,Effect.about]
      · exact (doMqttConnectTimeout_command layer {task with timeout := none} connect).addr
    · refine .beside (beside_resumeQ0 (BesideIn.refl layer) current ?_ _ _)
      rfl
  · split
    · split
      · exact .timeout ‹_› ‹_›
      · exact .beside (BesideIn.refl layer)
    · exact .beside (BesideIn.refl layer)

theorem beside_orphanTimeout (addr : Nat) : BesideQ12 layer (layer.orphanTimeout addr) := by
  unfold LogicLayer.orphanTimeout
  split
  · exact {BesideIn.refl layer with
      fault := fun fault => Bool.or_eq_true_iff.mpr (.inl fault)
      elsewhere := fun _ _ away => ⟨⟨away.current,away.queue,away.recv⟩,rfl⟩}
  · exact BesideIn.refl layer

/-- A task that the layer makes for itself. -/
theorem beside_push {base : LogicLayer} (same : BesideQ12 layer base) (next : base.nextAddr = layer.nextAddr) (task : Task)
    (own : task.addr = layer.nextAddr) (qos : task.qos = .atMostOnce) (scenario : task.scenario ≠ .shutdown) :
    BesideQ12 layer (LogicLayer.push {base with nextAddr := base.nextAddr + 1} allocs task .ok) := by
  have free : task.free.all (Effect.ofTask base.nextAddr) = true := by
    rw [next,← own]
    exact ofTask_free task
  unfold LogicLayer.push
  split
  · exact BesideIn.trans same (beside_refused free)
  rw [if_neg (by decide)]
  have queued : BesideQ12 layer (LogicLayer.queueQ0Task {base with nextAddr := base.nextAddr + 1} task) :=
    queueQ0Task_holds (stable_beside layer) (BesideIn.enqueue (BesideIn.trans same beside_next) own.ge
      ((own.trans next.symm).trans_lt (Nat.lt_succ_self _)))
  split
  · rename_i other
    exact absurd (qos.symm.trans other) Qos.noConfusion
  · rename_i other
    exact absurd other scenario
  · unfold LogicLayer.runTask
    rw [qos]
    exact queued

/-- Every call is one of the cases. -/
theorem step_cases12 (running : layer.fault = false) (event : Event) : StepQ12 allocs layer event (step allocs layer event) := by
  have refl := BesideIn.refl layer
  unfold step
  rw [if_neg (by rw [running]; exact Bool.false_ne_true)]
  cases event with
  | push request => exact step_pushRequest12 allocs request
  | confirm msgId type written => exact step_confirmed12 allocs msgId type written
  | pull msg => exact step_pull12 allocs msg
  | pullFailed state =>
    simp only [LogicLayer.pullFailed]
    split
    · exact .beside refl
    split
    · exact .beside (beside_perform fun _ => rfl)
    · exact .beside refl
  | taskTimeout addr => exact step_taskTimeout12 allocs addr
  | orphanTimeout addr => exact .beside (beside_orphanTimeout addr)
  | keepaliveOnce =>
    have dropped : BesideQ12 layer {layer with keepaliveEvent := false} :=
      {refl with elsewhere := fun _ _ away => ⟨⟨away.current,away.queue,away.recv⟩,rfl⟩}
    simp only [LogicLayer.doMqttKeepaliveOnce]
    split
    · split
      · exact .beside (beside_push {} dropped rfl (keepaliveTask layer.nextAddr) rfl rfl Scenario.noConfusion)
      · exact .beside dropped
    · exact .beside refl
  | init connection => exact .init connection
  | connect state =>
    simp only [LogicLayer.connect]
    split
    · exact .beside (beside_perform fun _ => rfl)
    · exact .beside (beside_push {} refl rfl (connectTask layer.nextAddr) rfl rfl Scenario.noConfusion)
  | postConnect =>
    simp only [LogicLayer.postConnect]
    split
    · exact .postConnect ‹_›
    · exact .beside refl
  | close state =>
    simp only [LogicLayer.close]
    split
    · exact .beside (beside_perform fun _ => rfl)
    · exact .beside (beside_perform fun _ => rfl)
  | closeExternally state =>
    simp only [LogicLayer.closeExternally]
    split
    · exact .beside (beside_perform fun _ => rfl)
    rename_i past
    split
    · exact .beside (beside_perform fun _ => rfl)
    · rename_i data
      refine .closeExternally past ?_
      rw [← Bool.not_eq_false',← Bool.not_eq_true]
      exact data
  | setConnectionState state =>
    exact .beside {refl with elsewhere := fun _ _ away => ⟨⟨away.current,away.queue,away.recv⟩,rfl⟩}
  | subscriptionCall => exact .subscriptionCall

end Cases

section Jobs

/-! A task that is resumed stays the task it is. -/

structure Task.SameJob (task result : Task) : Prop where
  addr : result.addr = task.addr
  msgId : result.msgId = task.msgId
  scenario : result.scenario = task.scenario
  qos : result.qos = task.qos
  data : result.data = task.data
  callback : result.callback = task.callback
  context : result.context = task.context
  session : result.sessionState = task.sessionState ∨ result.sessionState = task.stored.sessionState

variable (layer : LogicLayer) (allocs : Allocations) (task : Task) (state : XiState) (msg : Option Message)

theorem Task.SameJob.refl (task : Task) : task.SameJob task := ⟨rfl,rfl,rfl,rfl,rfl,rfl,rfl,.inl rfl⟩

theorem publishQ1Send_sameJob (dup : Nat) :
    ∀ result, (publishQ1Send task dup).task = some result → task.SameJob result := by
  unfold publishQ1Send publishQ1Error Outcome.abort
  repeat' split
  all_goals
    rintro result same
    cases same
  all_goals exact ⟨rfl,rfl,rfl,rfl,rfl,rfl,rfl,.inl rfl⟩

theorem subscribeSend_sameJob (dup : Nat) :
    ∀ result, (subscribeSend allocs task dup).task = some result → task.SameJob result := by
  unfold subscribeSend subscribeError Outcome.abort
  repeat' split
  all_goals
    rintro result same
    cases same
  all_goals exact ⟨rfl,rfl,rfl,rfl,rfl,rfl,rfl,.inl rfl⟩

theorem subscribeReply_sameJob :
    ∀ result, (subscribeReply layer allocs task state msg).task = some result → task.SameJob result := by
  unfold subscribeReply subscribeSuback subscribeError Outcome.abort
  simp only
  repeat' split
  all_goals
    rintro result same
    cases same
  all_goals exact .refl task

theorem publishQ1Reply_sameJob :
    ∀ result, (publishQ1Reply task state msg).task = some result → task.SameJob result := by
  unfold publishQ1Reply publishQ1Error Outcome.abort
  repeat' split
  all_goals
    rintro result same
    cases same
  all_goals exact .refl task

theorem executeQ12_sameJob :
    ∀ result, (layer.executeQ12 allocs task state msg).task = some result → task.SameJob result := by
  have calm : ∀ result, ({task with timeout := none} : Task).SameJob result → task.SameJob result :=
    fun _ ⟨addr,msgId,scenario,qos,data,callback,context,session⟩ =>
      ⟨addr,msgId,scenario,qos,data,callback,context,session⟩
  unfold LogicLayer.executeQ12
  split
  · unfold doMqttPublishQ1 Outcome.abort
    repeat' split
    all_goals
      rintro result same
      first
      | cases same; exact ⟨rfl,rfl,rfl,rfl,rfl,rfl,rfl,.inl rfl⟩
      | cases same; exact ⟨rfl,rfl,rfl,rfl,rfl,rfl,rfl,.inr rfl⟩
      | exact publishQ1Send_sameJob task _ result same
      | exact calm result (publishQ1Send_sameJob _ _ result same)
      | exact calm result (publishQ1Reply_sameJob _ _ _ result same)
  · unfold doMqttSubscribe subscribeError Outcome.abort
    repeat' split
    all_goals
      rintro result same
      first
      | cases same; done
      | cases same; exact ⟨rfl,rfl,rfl,rfl,rfl,rfl,rfl,.inl rfl⟩
      | cases same; exact ⟨rfl,rfl,rfl,rfl,rfl,rfl,rfl,.inr rfl⟩
      | exact subscribeSend_sameJob allocs task _ result same
      | exact calm result (subscribeSend_sameJob allocs _ _ result same)
      | exact calm result (subscribeReply_sameJob layer allocs _ _ _ result same)
  · rintro _ ⟨⟩
    exact .refl task

/-- The block that holds the data of the task; a subscription may outlive its task. -/
def Task.block (task : Task) : Nat :=
  match task.data with
  | some (.subscribe data) => data.block
  | _ => task.addr

/-- What a queued task may do. -/
def Effect.ofJob (task : Task) (effect : Effect) : Bool :=
  effect.phase = none && (effect.about = none || effect.about = some task.addr || effect.about = some task.block)

@[simp] theorem ofJob_freeMessage : (freeMessage msg).all (Effect.ofJob task) = true := by
  cases msg <;> rfl

@[simp] theorem ofJob_free : task.free.all (Effect.ofJob task) = true := by
  unfold Task.free Task.freeData
  split <;> simp [Effect.ofJob,Effect.phase,Effect.about]

@[simp] theorem ofJob_callback : (task.deferUsersCallback state).all (Effect.ofJob task) = true := by
  unfold Task.deferUsersCallback
  split <;> simp [Effect.ofJob,Effect.phase,Effect.about]

theorem publishQ1Send_job (dup : Nat) : (publishQ1Send task dup).effects.all (Effect.ofJob task) = true := by
  unfold publishQ1Send publishQ1Error Outcome.abort
  repeat' split
  all_goals simp [Effect.ofJob,Effect.phase,Effect.about]

theorem publishQ1Reply_job : (publishQ1Reply task state msg).effects.all (Effect.ofJob task) = true := by
  unfold publishQ1Reply publishQ1Error Outcome.abort
  repeat' split
  all_goals simp [Effect.ofJob,Effect.phase,Effect.about]

theorem subscribeSend_job (dup : Nat) : (subscribeSend allocs task dup).effects.all (Effect.ofJob task) = true := by
  unfold subscribeSend subscribeError Outcome.abort
  repeat' split
  all_goals simp [Effect.ofJob,Effect.phase,Effect.about]

theorem subscribeSuback_job {data : SubscribeData} (own : task.data = some (.subscribe data)) (status : UInt8) :
    (subscribeSuback layer allocs task data status).effects.all (Effect.ofJob task) = true := by
  have block : data.block = task.block := by
    unfold Task.block
    rw [own]
  unfold subscribeSuback subscribeError
  repeat' split
  all_goals simp [Effect.ofJob,Effect.phase,Effect.about,block]

theorem subscribeReply_job : (subscribeReply layer allocs task state msg).effects.all (Effect.ofJob task) = true := by
  unfold subscribeReply subscribeError Outcome.abort
  split
  · simp
  split
  · simp
  split
  · simp
  split
  · rename_i own
    rw [List.all_append,subscribeSuback_job layer allocs task own]
    rfl
  · simp

theorem executeQ12_job : (layer.executeQ12 allocs task state msg).effects.all (Effect.ofJob task) = true := by
  unfold LogicLayer.executeQ12
  split
  · unfold doMqttPublishQ1 Outcome.abort
    repeat' split
    all_goals
      first
      | exact publishQ1Send_job ..
      | exact publishQ1Reply_job ..
      | exact publishQ1Send_job {task with timeout := none} _
      | exact publishQ1Reply_job {task with timeout := none} _ _
      | simp
  · unfold doMqttSubscribe subscribeError Outcome.abort
    repeat' split
    all_goals
      first
      | exact subscribeSend_job ..
      | exact subscribeReply_job ..
      | exact subscribeSend_job allocs {task with timeout := none} _
      | exact subscribeReply_job layer allocs {task with timeout := none} _ _
      | simp
  · rfl

theorem executeQ12_phase : observe Effect.phase (layer.executeQ12 allocs task state msg).effects = [] := by
  refine List.filterMap_eq_nil_iff.mpr fun effect member => ?_
  have own := List.all_eq_true.mp (executeQ12_job layer allocs task state msg) effect member
  exact of_decide_eq_true (Bool.and_eq_true_iff.mp own).1

end Jobs

section Resume

/-! What a queued task that is resumed leaves alone. -/

variable {layer : LogicLayer} {allocs : Allocations} {task : Task} {state : XiState} {msg : Option Message}

@[simp] theorem resumeQ12_q12TasksQueue : (layer.resumeQ12 allocs task state msg).q12TasksQueue =
    replaceTask task.addr (layer.executeQ12 allocs task state msg).task layer.q12TasksQueue :=
  LogicLayer.perform_q12TasksQueue

@[simp] theorem resumeQ12_copies : (layer.resumeQ12 allocs task state msg).copyOfQ12UnackedMessagesQueue =
    layer.copyOfQ12UnackedMessagesQueue := LogicLayer.perform_copyOfQ12UnackedMessagesQueue

@[simp] theorem resumeQ12_nextAddr : (layer.resumeQ12 allocs task state msg).nextAddr = layer.nextAddr :=
  LogicLayer.perform_nextAddr

@[simp] theorem resumeQ12_lastMsgId : (layer.resumeQ12 allocs task state msg).lastMsgId = layer.lastMsgId :=
  LogicLayer.perform_lastMsgId

@[simp] theorem resumeQ12_copyOfLastMsgId : (layer.resumeQ12 allocs task state msg).copyOfLastMsgId =
    layer.copyOfLastMsgId := LogicLayer.perform_copyOfLastMsgId

@[simp] theorem resumeQ12_hasData : (layer.resumeQ12 allocs task state msg).hasData = layer.hasData :=
  LogicLayer.perform_hasData

@[simp] theorem resumeQ12_effects : (layer.resumeQ12 allocs task state msg).effects =
    layer.effects ++ (layer.executeQ12 allocs task state msg).effects := LogicLayer.perform_effects

theorem resumeQ12_fault : (layer.resumeQ12 allocs task state msg).fault =
    (layer.fault || (layer.executeQ12 allocs task state msg).fault) := by
  have each := List.all_eq_true.mp (executeQ12_quiet layer allocs task state msg)
  change ((LogicLayer.perform _ _).fault || _) = _
  rw [LogicLayer.perform_fault each]

theorem resumeQ12_sending : ∃ more, (layer.resumeQ12 allocs task state msg).sending = layer.sending ++ more :=
  LogicLayer.perform_sending

theorem resumeQ12_working : (layer.resumeQ12 allocs task state msg).working ↔ layer.working := by
  have each := List.all_eq_true.mp (executeQ12_quiet layer allocs task state msg)
  have moved : (layer.resumeQ12 allocs task state msg).layerState = layer.layerState :=
    LogicLayer.perform_layerState each
  unfold LogicLayer.working LogicLayer.notOperational
  rw [moved,resumeQ12_hasData]

end Resume

section Sessions

/-! What ends and begins a connection. -/

variable {before layer : LogicLayer} {current : Option Task} {queue : List Task}

theorem beside_stopCurrentTask : BesideQ12 layer layer.stopCurrentTask := by
  unfold LogicLayer.stopCurrentTask
  split
  · exact BesideIn.refl layer
  · rename_i task same
    have stopped := beside_resumeQ0 (BesideIn.refl layer) same rfl .timeout task.msg
    unfold LogicLayer.freeCurrentTask
    split
    · exact stopped
    · rename_i left current
      unfold BesideQ12 HoldsQ0 at stopped
      rw [current] at stopped
      have freed := stopped.perform (not_reserved_of_own (ofTask_free left)) fun addr old away =>
        mentions_other ((stopped.elsewhere addr old away).1.current left rfl) (ofTask_free left)
      unfold BesideQ12 HoldsQ0
      change BesideIn layer _ none (LogicLayer.perform _ _).q0TasksQueue
      rw [LogicLayer.perform_q0TasksQueue]
      refine {freed with
        fault := fun fault => Bool.or_eq_true_iff.mpr (.inl (stopped.fault fault))
        elsewhere := fun addr old away => ?_}
      obtain ⟨still,same⟩ := freed.elsewhere addr old away
      exact ⟨⟨fun _ none => absurd none.symm (Option.some_ne_none _),still.queue,still.recv⟩,same⟩

/-- The tasks that a session keeps. -/
def savedTasks (layer : LogicLayer) : List Task :=
  ((layer.q12TasksQueue.map LogicLayer.cancelTaskTimeout).filter (·.sessionState = .store)).map ({· with context := false})

theorem saveSession_copies : layer.saveSession.copyOfQ12UnackedMessagesQueue =
    (layer.q12TasksQueue.filter (·.sessionState = .store)).map ({· with context := false}) := by
  unfold LogicLayer.saveSession
  simp only
  split <;> rfl

theorem releaseSession_copies : layer.releaseSession.copyOfQ12UnackedMessagesQueue =
    if layer.connection.sessionType = .continue then savedTasks layer else layer.copyOfQ12UnackedMessagesQueue := by
  unfold LogicLayer.releaseSession
  refine LogicLayer.perform_copyOfQ12UnackedMessagesQueue.trans ?_
  split
  · exact saveSession_copies
  · rfl

/-- What is left of the queue behind a released session. -/
theorem released_copies {state : XiState} :
    (layer.releaseSession.stopCurrentTask.freeLayerData.perform
      [.closeExternallyNext state]).copyOfQ12UnackedMessagesQueue =
    if layer.connection.sessionType = .continue then savedTasks layer else layer.copyOfQ12UnackedMessagesQueue := by
  refine LogicLayer.perform_copyOfQ12UnackedMessagesQueue.trans ?_
  refine LogicLayer.perform_copyOfQ12UnackedMessagesQueue.trans ?_
  exact (@beside_stopCurrentTask layer.releaseSession).copies.trans releaseSession_copies

theorem released_nextAddr {state : XiState} : layer.nextAddr ≤
    (layer.releaseSession.stopCurrentTask.freeLayerData.perform [.closeExternallyNext state]).nextAddr := by
  have kept : (layer.releaseSession.stopCurrentTask.freeLayerData.perform [.closeExternallyNext state]).nextAddr =
      layer.releaseSession.stopCurrentTask.nextAddr :=
    LogicLayer.perform_nextAddr.trans LogicLayer.perform_nextAddr
  rw [kept]
  exact Undisturbed.releaseSession.nextAddr.trans beside_stopCurrentTask.nextAddr

/-- The saved counter, too, is the one of the session that ends. -/
theorem released_copyOfLastMsgId {state : XiState} :
    (layer.releaseSession.stopCurrentTask.freeLayerData.perform [.closeExternallyNext state]).copyOfLastMsgId =
    if layer.connection.sessionType = .continue then layer.lastMsgId else layer.copyOfLastMsgId := by
  refine LogicLayer.perform_copyOfLastMsgId.trans ?_
  refine LogicLayer.perform_copyOfLastMsgId.trans ?_
  refine (@beside_stopCurrentTask layer.releaseSession).copyOfLastMsgId.trans ?_
  unfold LogicLayer.releaseSession
  refine LogicLayer.perform_copyOfLastMsgId.trans ?_
  split
  · unfold LogicLayer.saveSession
    simp only
    split <;> rfl
  · rfl

theorem runSubscriptionCall_counters : layer.runSubscriptionCall.lastMsgId = layer.lastMsgId ∧
    layer.runSubscriptionCall.copyOfLastMsgId = layer.copyOfLastMsgId := by
  unfold LogicLayer.runSubscriptionCall
  split
  · exact ⟨rfl,rfl⟩
  simp only
  split <;> exact ⟨rfl,rfl⟩

theorem runSubscriptionCall_queue : layer.runSubscriptionCall.q12TasksQueue = layer.q12TasksQueue ∧
    layer.runSubscriptionCall.copyOfQ12UnackedMessagesQueue = layer.copyOfQ12UnackedMessagesQueue ∧
    layer.runSubscriptionCall.nextAddr = layer.nextAddr := by
  unfold LogicLayer.runSubscriptionCall
  split
  · exact ⟨rfl,rfl,rfl⟩
  simp only
  split <;> exact ⟨rfl,rfl,rfl⟩

theorem init_q12TasksQueue (connection : ConnectionData) : (layer.init connection).q12TasksQueue =
    if connection.sessionType = .continue then layer.copyOfQ12UnackedMessagesQueue else layer.q12TasksQueue := by
  unfold LogicLayer.init
  refine LogicLayer.perform_q12TasksQueue.trans ?_
  simp only
  split
  · rfl
  · exact LogicLayer.perform_q12TasksQueue

theorem init_copies (connection : ConnectionData) : (layer.init connection).copyOfQ12UnackedMessagesQueue = [] := by
  unfold LogicLayer.init
  refine LogicLayer.perform_copyOfQ12UnackedMessagesQueue.trans ?_
  simp only
  split <;> rfl

theorem init_lastMsgId (connection : ConnectionData) : (layer.init connection).lastMsgId =
    if connection.sessionType = .continue then layer.copyOfLastMsgId else layer.lastMsgId := by
  unfold LogicLayer.init
  refine LogicLayer.perform_lastMsgId.trans ?_
  simp only
  split
  · rfl
  · exact LogicLayer.perform_lastMsgId

theorem init_hasData (connection : ConnectionData) : (layer.init connection).hasData = true := by
  unfold LogicLayer.init
  refine LogicLayer.perform_hasData.trans ?_
  simp only
  split
  · rfl
  · exact LogicLayer.perform_hasData

theorem init_effects (connection : ConnectionData) : ∃ more, (layer.init connection).effects = more ++ [.initPrev] := by
  unfold LogicLayer.init
  exact ⟨_,LogicLayer.perform_effects⟩

theorem init_nextAddr (connection : ConnectionData) : (layer.init connection).nextAddr = layer.nextAddr := by
  unfold LogicLayer.init
  refine LogicLayer.perform_nextAddr.trans ?_
  simp only
  split
  · rfl
  · exact LogicLayer.perform_nextAddr

end Sessions

/-- Every call with its own allocations. -/
def stepWith (layer : LogicLayer) (call : Allocations × Event) : LogicLayer := step call.1 layer call.2

/-- Calls whose allocations all succeed. -/
def allocated (events : List Event) : List (Allocations × Event) := events.map ({},·)

end XivelyClient.Mqtt.Logic
