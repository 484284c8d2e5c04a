import XivelyClient.Mqtt.Logic.Layer
import XivelyClient.Lib.Runs

/-! What the parts of the logic layer leave alone. The QoS 0 tasks never touch the queues of the other
tasks; those never touch the QoS 0 tasks, the keepalive event or the state of the connection. -/
namespace XivelyClient.Mqtt.Logic

namespace Effect

/-- The effects that change neither the state of the layer nor that of the connection. -/
def quiet : Effect → Bool
  | .connectNext _ | .connectThis _ | .initPrev | .closeThis _ | .closePrev _ | .closeExternallyThis _
  | .closeExternallyNext _ | .opened | .scheduleKeepalive | .started _ => false
  | _ => true

/-- The effects on the subscriptions of the user. -/
def subscription : Effect → Bool
  | .registerHandler _ | .subscriptionCall _ _ _ | .topicCall _ _ => true
  | _ => false

end Effect

namespace LogicLayer

variable {layer : LogicLayer} {effects : List Effect}

theorem perform_cons (effect : Effect) : layer.perform (effect :: effects) =
    {layer.apply effect with effects := layer.effects ++ [effect]}.perform effects := rfl

theorem perform_append (more : List Effect) : layer.perform (effects ++ more) = (layer.perform effects).perform more :=
  List.foldl_append

theorem perform_keeps {α : Type*} (f : LogicLayer → α) (layer : LogicLayer) (effects : List Effect)
    (keep : ∀ layer : LogicLayer, ∀ effect ∈ effects,
      f {layer.apply effect with effects := layer.effects ++ [effect]} = f layer) :
    f (layer.perform effects) = f layer := by
  induction effects generalizing layer with
  | nil => rfl
  | cons effect effects ih =>
    rw [perform_cons,ih]
    · exact keep layer effect (List.mem_cons_self ..)
    · intro layer other member
      exact keep layer other (List.mem_cons_of_mem effect member)

@[simp] theorem perform_effects : (layer.perform effects).effects = layer.effects ++ effects := by
  induction effects generalizing layer with
  | nil => exact (List.append_nil _).symm
  | cons effect effects ih => rw [perform_cons,ih,List.append_assoc,List.singleton_append]

section Fields

@[simp] theorem perform_hasData : (layer.perform effects).hasData = layer.hasData :=
  perform_keeps hasData layer effects fun _ effect _ => by cases effect <;> rfl

@[simp] theorem perform_q12TasksQueue : (layer.perform effects).q12TasksQueue = layer.q12TasksQueue :=
  perform_keeps q12TasksQueue layer effects fun _ effect _ => by cases effect <;> rfl

@[simp] theorem perform_q12RecvTasksQueue : (layer.perform effects).q12RecvTasksQueue = layer.q12RecvTasksQueue :=
  perform_keeps q12RecvTasksQueue layer effects fun _ effect _ => by cases effect <;> rfl

@[simp] theorem perform_q0TasksQueue : (layer.perform effects).q0TasksQueue = layer.q0TasksQueue :=
  perform_keeps q0TasksQueue layer effects fun _ effect _ => by cases effect <;> rfl

@[simp] theorem perform_currentQ0Task : (layer.perform effects).currentQ0Task = layer.currentQ0Task :=
  perform_keeps currentQ0Task layer effects fun _ effect _ => by cases effect <;> rfl

@[simp] theorem perform_lastMsgId : (layer.perform effects).lastMsgId = layer.lastMsgId :=
  perform_keeps lastMsgId layer effects fun _ effect _ => by cases effect <;> rfl

@[simp] theorem perform_nextAddr : (layer.perform effects).nextAddr = layer.nextAddr :=
  perform_keeps nextAddr layer effects fun _ effect _ => by cases effect <;> rfl

@[simp] theorem perform_orphans : (layer.perform effects).orphans = layer.orphans :=
  perform_keeps orphans layer effects fun _ effect _ => by cases effect <;> rfl

@[simp] theorem perform_copyOfQ12UnackedMessagesQueue :
    (layer.perform effects).copyOfQ12UnackedMessagesQueue = layer.copyOfQ12UnackedMessagesQueue :=
  perform_keeps copyOfQ12UnackedMessagesQueue layer effects fun _ effect _ => by cases effect <;> rfl

@[simp] theorem perform_copyOfHandlersForTopics :
    (layer.perform effects).copyOfHandlersForTopics = layer.copyOfHandlersForTopics :=
  perform_keeps copyOfHandlersForTopics layer effects fun _ effect _ => by cases effect <;> rfl

@[simp] theorem perform_copyOfLastMsgId : (layer.perform effects).copyOfLastMsgId = layer.copyOfLastMsgId :=
  perform_keeps copyOfLastMsgId layer effects fun _ effect _ => by cases effect <;> rfl

@[simp] theorem perform_request :
    (layer.perform effects).connection.toConnectionRequest = layer.connection.toConnectionRequest :=
  perform_keeps (·.connection.toConnectionRequest) layer effects fun _ effect _ => by cases effect <;> rfl

/-- What the codec layer has got is not taken back. -/
theorem perform_sending : ∃ more, (layer.perform effects).sending = layer.sending ++ more := by
  induction effects generalizing layer with
  | nil => exact ⟨[],(List.append_nil _).symm⟩
  | cons effect effects ih =>
    obtain ⟨more,same⟩ := @ih {layer.apply effect with effects := layer.effects ++ [effect]}
    rw [perform_cons,same]
    cases effect with
    | send message => exact ⟨_,List.append_assoc _ _ _⟩
    | _ => exact ⟨more,rfl⟩

theorem apply_quiet {effect : Effect} (quiet : effect.quiet = true) :
    (layer.apply effect).layerState = layer.layerState ∧ (layer.apply effect).connection = layer.connection ∧
      (layer.apply effect).keepaliveEvent = layer.keepaliveEvent ∧ (layer.apply effect).fault = layer.fault := by
  cases effect <;> first | exact ⟨rfl,rfl,rfl,rfl⟩ | exact absurd quiet Bool.false_ne_true

variable (quiet : ∀ effect ∈ effects, effect.quiet = true)
include quiet

theorem perform_layerState : (layer.perform effects).layerState = layer.layerState :=
  perform_keeps layerState layer effects fun _ effect member => (apply_quiet (quiet effect member)).1

theorem perform_connection : (layer.perform effects).connection = layer.connection :=
  perform_keeps connection layer effects fun _ effect member => (apply_quiet (quiet effect member)).2.1

theorem perform_keepaliveEvent : (layer.perform effects).keepaliveEvent = layer.keepaliveEvent :=
  perform_keeps keepaliveEvent layer effects fun _ effect member => (apply_quiet (quiet effect member)).2.2.1

theorem perform_fault : (layer.perform effects).fault = layer.fault :=
  perform_keeps fault layer effects fun _ effect member => (apply_quiet (quiet effect member)).2.2.2

end Fields

end LogicLayer

section Quiet

/-! The tasks of QoS 1 and 2 and the received messages are quiet. -/

@[simp] theorem freeMessage_quiet (msg : Option Message) : (freeMessage msg).all Effect.quiet = true := by
  cases msg <;> rfl

@[simp] theorem freeData_quiet (task : Task) : task.freeData.all Effect.quiet = true := by
  unfold Task.freeData
  split <;> rfl

@[simp] theorem free_quiet (task : Task) : task.free.all Effect.quiet = true := by
  rw [Task.free,List.all_append,freeData_quiet]
  rfl

@[simp] theorem deferUsersCallback_quiet (task : Task) (state : XiState) :
    (task.deferUsersCallback state).all Effect.quiet = true := by
  unfold Task.deferUsersCallback
  split <;> rfl

theorem freeTasks_quiet (queue : List Task) : (LogicLayer.freeTasks queue).all Effect.quiet = true := by
  rw [LogicLayer.freeTasks,List.all_flatMap]
  exact List.all_eq_true.mpr fun task _ => free_quiet task

theorem freeHandlers_quiet (handlers : List SubscribeData) :
    (LogicLayer.freeHandlers handlers).all Effect.quiet = true := by
  rw [LogicLayer.freeHandlers,List.all_map]
  exact List.all_eq_true.mpr fun data _ => rfl

namespace Outcome

def Quiet (outcome : Outcome) : Prop := outcome.effects.all Effect.quiet = true

end Outcome

theorem publishQ1Error_quiet (task : Task) (state : XiState) (msg : Option Message) :
    (publishQ1Error task state msg).Quiet := by
  simp [Outcome.Quiet,publishQ1Error]

theorem publishQ1Send_quiet (task : Task) (dup : Nat) : (publishQ1Send task dup).Quiet := by
  unfold publishQ1Send
  split
  · split
    · exact publishQ1Error_quiet ..
    · rfl
  · rfl

theorem publishQ1Reply_quiet (task : Task) (state : XiState) (msg : Option Message) :
    (publishQ1Reply task state msg).Quiet := by
  unfold publishQ1Reply
  split
  · exact publishQ1Error_quiet ..
  split
  · rfl
  split
  · exact publishQ1Error_quiet ..
  · simp [Outcome.Quiet,Effect.quiet]

theorem doMqttPublishQ1_quiet (layer : LogicLayer) (task : Task) (state : XiState) (msg : Option Message) :
    (doMqttPublishQ1 layer task state msg).Quiet := by
  unfold doMqttPublishQ1
  split
  · rfl
  split
  · exact freeMessage_quiet msg
  split
  iterate 2
    split
    · rfl
    · exact publishQ1Send_quiet ..
  · split
    · split <;> rfl
    · exact publishQ1Send_quiet ..
  · split
    · split
      · rfl
      · exact publishQ1Send_quiet ..
    split
    · exact publishQ1Send_quiet ..
    · exact publishQ1Reply_quiet ..

theorem subscribeError_quiet (task : Task) (msg : Option Message) : (subscribeError task msg).Quiet := by
  simp [Outcome.Quiet,subscribeError]

theorem subscribeSend_quiet (allocs : Allocations) (task : Task) (dup : Nat) :
    (subscribeSend allocs task dup).Quiet := by
  unfold subscribeSend
  split
  · exact subscribeError_quiet ..
  split
  · split
    · exact subscribeError_quiet ..
    · rfl
  · rfl

theorem subscribeSuback_quiet (layer : LogicLayer) (allocs : Allocations) (task : Task) (data : SubscribeData)
    (status : UInt8) : (subscribeSuback layer allocs task data status).Quiet := by
  unfold subscribeSuback
  split
  · split
    · rfl
    · exact subscribeError_quiet ..
  split
  · exact subscribeError_quiet ..
  split
  · rfl
  · simp [Outcome.Quiet,Effect.quiet]

theorem subscribeReply_quiet (layer : LogicLayer) (allocs : Allocations) (task : Task) (state : XiState)
    (msg : Option Message) : (subscribeReply layer allocs task state msg).Quiet := by
  unfold subscribeReply
  split
  · exact subscribeError_quiet ..
  split
  · rfl
  split
  · exact subscribeError_quiet ..
  split
  · exact subscribeSuback_quiet ..
  · rfl

theorem doMqttSubscribe_quiet (layer : LogicLayer) (allocs : Allocations) (task : Task) (state : XiState)
    (msg : Option Message) : (doMqttSubscribe layer allocs task state msg).Quiet := by
  unfold doMqttSubscribe
  split
  · rfl
  split
  · exact freeMessage_quiet msg
  split
  · exact subscribeSend_quiet ..
  · split
    · rfl
    split
    · split
      · split
        · rfl
        · exact subscribeError_quiet ..
      · rfl
    split
    · rfl
    · exact subscribeError_quiet ..
  · split
    · rfl
    · exact subscribeSend_quiet ..
  · split
    · split
      · rfl
      · exact subscribeSend_quiet ..
    split
    · exact subscribeSend_quiet ..
    · exact subscribeReply_quiet ..

theorem executeQ12_quiet (layer : LogicLayer) (allocs : Allocations) (task : Task) (state : XiState)
    (msg : Option Message) : (layer.executeQ12 allocs task state msg).Quiet := by
  unfold LogicLayer.executeQ12
  split
  · exact doMqttPublishQ1_quiet ..
  · exact doMqttSubscribe_quiet ..
  · rfl

theorem callTopicHandler_quiet (layer : LogicLayer) (msg : Message) : (callTopicHandler layer msg).Quiet := by
  unfold callTopicHandler
  split
  · split <;> rfl
  · split <;> rfl

theorem onPublishQ1Recieved_quiet (layer : LogicLayer) (task : Task) (state : XiState) (msg : Option Message) :
    (onPublishQ1Recieved layer task state msg).Quiet := by
  unfold onPublishQ1Recieved
  split
  · exact freeMessage_quiet msg
  split
  · rfl
  · split
    · rfl
    split
    · rfl
    · exact callTopicHandler_quiet ..
  · rfl

end Quiet

section Observations

/-! What can be read from the effects, where the quiet ones tell nothing. -/

variable {α : Type*} {f : Effect → Option α}

def observe (f : Effect → Option α) (effects : List Effect) : List α := effects.filterMap f

def Blind (f : Effect → Option α) : Prop := ∀ effect : Effect, effect.quiet = true → f effect = none

@[simp] theorem observe_nil : observe f [] = [] := rfl

@[simp] theorem observe_cons (effect : Effect) (effects : List Effect) :
    observe f (effect :: effects) = (f effect).toList ++ observe f effects := by
  unfold observe
  cases same : f effect with
  | none => rw [List.filterMap_cons_none same]; rfl
  | some value => rw [List.filterMap_cons_some same]; rfl

@[simp] theorem observe_append (effects more : List Effect) :
    observe f (effects ++ more) = observe f effects ++ observe f more := List.filterMap_append

variable (blind : Blind f)
include blind

theorem observe_quiet {effects : List Effect} (quiet : effects.all Effect.quiet = true) : observe f effects = [] :=
  List.filterMap_eq_nil_iff.mpr fun effect member => blind effect (List.all_eq_true.mp quiet effect member)

theorem observe_free (task : Task) : observe f task.free = [] := observe_quiet blind (free_quiet task)

theorem observe_freeData (task : Task) : observe f task.freeData = [] := observe_quiet blind (freeData_quiet task)

theorem observe_freeMessage (msg : Option Message) : observe f (freeMessage msg) = [] :=
  observe_quiet blind (freeMessage_quiet msg)

theorem observe_callback (task : Task) (state : XiState) : observe f (task.deferUsersCallback state) = [] :=
  observe_quiet blind (deferUsersCallback_quiet task state)

end Observations

/-- A step beside the QoS 0 tasks. -/
structure Undisturbed (before after : LogicLayer) : Prop where
  q0TasksQueue : after.q0TasksQueue = before.q0TasksQueue
  currentQ0Task : after.currentQ0Task = before.currentQ0Task
  keepaliveEvent : after.keepaliveEvent = before.keepaliveEvent
  connection : after.connection = before.connection
  layerState : after.layerState = before.layerState
  hasData : after.hasData = before.hasData
  orphans : after.orphans ⊆ before.orphans
  nextAddr : before.nextAddr ≤ after.nextAddr
  effects : ∃ more, more.all Effect.quiet = true ∧ after.effects = before.effects ++ more

namespace Undisturbed

variable {layer before between after : LogicLayer}

theorem observe {α : Type*} {f : Effect → Option α} (blind : Blind f) (same : Undisturbed before after) :
    observe f after.effects = observe f before.effects := by
  obtain ⟨more,quiet,appended⟩ := same.effects
  rw [appended,observe_append,observe_quiet blind quiet,List.append_nil]

theorem refl (layer : LogicLayer) : Undisturbed layer layer :=
  ⟨rfl,rfl,rfl,rfl,rfl,rfl,List.Subset.refl _,le_rfl,[],rfl,(List.append_nil _).symm⟩

theorem trans (first : Undisturbed before between) (second : Undisturbed between after) : Undisturbed before after := by
  obtain ⟨more,quiet,same⟩ := first.effects
  obtain ⟨more',quiet',same'⟩ := second.effects
  refine ⟨second.q0TasksQueue.trans first.q0TasksQueue,second.currentQ0Task.trans first.currentQ0Task,
    second.keepaliveEvent.trans first.keepaliveEvent,second.connection.trans first.connection,
    second.layerState.trans first.layerState,second.hasData.trans first.hasData,List.Subset.trans second.orphans first.orphans,
    first.nextAddr.trans second.nextAddr,more ++ more',?_,?_⟩
  · rw [List.all_append,quiet,quiet']
    rfl
  · rw [same',same,List.append_assoc]

theorem perform {effects : List Effect} (quiet : effects.all Effect.quiet = true) :
    Undisturbed layer (layer.perform effects) := by
  have each : ∀ effect ∈ effects, effect.quiet = true := List.all_eq_true.mp quiet
  exact ⟨LogicLayer.perform_q0TasksQueue,LogicLayer.perform_currentQ0Task,LogicLayer.perform_keepaliveEvent each,
    LogicLayer.perform_connection each,LogicLayer.perform_layerState each,LogicLayer.perform_hasData,
    by rw [LogicLayer.perform_orphans]; exact List.Subset.refl _,LogicLayer.perform_nextAddr.ge,effects,quiet,LogicLayer.perform_effects⟩

theorem failIf (fault : Bool) : Undisturbed layer (layer.failIf fault) :=
  ⟨rfl,rfl,rfl,rfl,rfl,rfl,List.Subset.refl _,le_rfl,[],rfl,(List.append_nil _).symm⟩

theorem resumeQ12 (allocs : Allocations) (task : Task) (state : XiState) (msg : Option Message) :
    Undisturbed layer (layer.resumeQ12 allocs task state msg) := by
  refine .trans ?_ (.failIf _)
  refine .trans ?_ (.perform (executeQ12_quiet ..))
  exact ⟨rfl,rfl,rfl,rfl,rfl,rfl,List.Subset.refl _,le_rfl,[],rfl,(List.append_nil _).symm⟩

theorem resumeRecv (task : Task) (state : XiState) (msg : Option Message) :
    Undisturbed layer (layer.resumeRecv task state msg) := by
  refine .trans ?_ (.failIf _)
  refine .trans ?_ (.perform (onPublishQ1Recieved_quiet ..))
  exact ⟨rfl,rfl,rfl,rfl,rfl,rfl,List.Subset.refl _,le_rfl,[],rfl,(List.append_nil _).symm⟩

theorem addRecvTask (msg : Message) : Undisturbed layer (layer.addRecvTask msg) := by
  refine .trans ?_ (.resumeRecv _ _ _)
  refine .trans ?_ (.failIf _)
  exact ⟨rfl,rfl,rfl,rfl,rfl,rfl,List.Subset.refl _,Nat.le_succ _,[],rfl,(List.append_nil _).symm⟩

theorem onPublishRecieved (msg : Message) : Undisturbed layer (layer.onPublishRecieved msg) := by
  unfold LogicLayer.onPublishRecieved
  split
  · exact .trans (.perform (callTopicHandler_quiet ..)) (.failIf _)
  · exact addRecvTask msg
  · exact .refl layer

theorem postConnect (allocs : Allocations) : Undisturbed layer (layer.postConnect allocs) := by
  have resend (queue : List Task) (layer : LogicLayer) :
      Undisturbed layer (queue.foldl (LogicLayer.setNewContextAndCallResend allocs) layer) := by
    induction queue generalizing layer with
    | nil => exact .refl layer
    | cons task queue ih =>
      refine .trans ?_ (ih _)
      unfold LogicLayer.setNewContextAndCallResend
      split
      · exact resumeQ12 ..
      · exact .refl layer
  unfold LogicLayer.postConnect
  split
  · exact .trans (resend _ layer) (.perform rfl)
  · exact .refl layer

theorem runSubscriptionCall : Undisturbed layer layer.runSubscriptionCall := by
  unfold LogicLayer.runSubscriptionCall
  split
  · exact .refl layer
  split
  · refine .trans ?_ (.perform rfl)
    exact ⟨rfl,rfl,rfl,rfl,rfl,rfl,List.Subset.refl _,le_rfl,[],rfl,(List.append_nil _).symm⟩
  · exact ⟨rfl,rfl,rfl,rfl,rfl,rfl,List.Subset.refl _,le_rfl,[],rfl,(List.append_nil _).symm⟩

theorem saveSession : Undisturbed layer layer.saveSession := by
  unfold LogicLayer.saveSession
  simp only
  split
  · exact ⟨rfl,rfl,rfl,rfl,rfl,rfl,List.Subset.refl _,le_rfl,[],rfl,(List.append_nil _).symm⟩
  · exact ⟨rfl,rfl,rfl,rfl,rfl,rfl,List.Subset.refl _,le_rfl,[],rfl,(List.append_nil _).symm⟩

theorem releaseSession : Undisturbed layer layer.releaseSession := by
  have cancelled : Undisturbed layer {layer with
      q12TasksQueue := layer.q12TasksQueue.map LogicLayer.cancelTaskTimeout
      q12RecvTasksQueue := layer.q12RecvTasksQueue.map LogicLayer.cancelTaskTimeout} :=
    ⟨rfl,rfl,rfl,rfl,rfl,rfl,List.Subset.refl _,le_rfl,[],rfl,(List.append_nil _).symm⟩
  have forget (layer : LogicLayer) : Undisturbed layer {layer with handlersForTopics := []} :=
    ⟨rfl,rfl,rfl,rfl,rfl,rfl,List.Subset.refl _,le_rfl,[],rfl,(List.append_nil _).symm⟩
  unfold LogicLayer.releaseSession
  simp only
  refine .trans ?_ (forget _)
  refine .trans ?_ (.perform (freeHandlers_quiet _))
  split
  · exact cancelled.trans saveSession
  · exact cancelled

theorem orphanTimeout (addr : Nat) : Undisturbed layer (layer.orphanTimeout addr) := by
  unfold LogicLayer.orphanTimeout
  split
  · exact ⟨rfl,rfl,rfl,rfl,rfl,rfl,List.erase_subset,le_rfl,[],rfl,(List.append_nil _).symm⟩
  · exact .refl layer

end Undisturbed

end XivelyClient.Mqtt.Logic
