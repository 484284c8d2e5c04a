import XivelyClient.Mqtt.Logic.Frame

/-! What one call of the layer does to the QoS 0 tasks, said once for all invariants about them. -/
namespace XivelyClient.Mqtt.Logic

namespace LogicLayer

def working (layer : LogicLayer) : Prop := layer.notOperational = false ∧ layer.hasData = true

instance (layer : LogicLayer) : Decidable layer.working :=
  inferInstanceAs (Decidable (layer.notOperational = false ∧ layer.hasData = true))

end LogicLayer

/-- The events that reach the current QoS 0 task or add a publish behind it. -/
def Event.reachesQ0 (layer : LogicLayer) : Event → Prop
  | .push (.publish _ _ .atMostOnce _ _) => layer.working
  | .confirm msgId _ _ => msgId = 0 ∧ layer.working ∧ layer.currentQ0Task.isSome
  | .pull msg => msg.common.type ≠ .publish ∧ getMessageId msg = 0 ∧ layer.working ∧ layer.currentQ0Task.isSome
  | .taskTimeout addr => ∃ task, layer.currentQ0Task = some task ∧ task.addr = addr ∧ task.timeout.isSome
  | _ => False

def keepaliveTask (addr : Nat) : Task := {addr := addr,scenario := .keepalive}

def connectTask (addr : Nat) : Task := {addr := addr,scenario := .connect,priority := .immediate}

/-- The requests that make a QoS 0 task. -/
def Request.atMostOnce : Request → Bool
  | .publish _ _ .atMostOnce _ _ => true
  | .shutdown => true
  | _ => false

/-- The calls seen from the QoS 0 tasks. `base` is the layer after what the call does beside them. -/
inductive StepQ0 (layer : LogicLayer) : Event → LogicLayer → Prop
  | aside {event : Event} {after : LogicLayer} (same : Undisturbed layer after) (past : ¬ event.reachesQ0 layer) :
    StepQ0 layer event after
  | queue {request : Request} {base : LogicLayer} (same : Undisturbed layer base) (working : layer.working)
    (q0 : request.atMostOnce = true) (next : layer.nextAddr < base.nextAddr) :
    StepQ0 layer (.push request) (base.queueQ0Task (request.make layer.nextAddr))
  | confirm {type : MqttType} {written : Bool} {base : LogicLayer} {task : Task} (same : Undisturbed layer base)
    (working : layer.working) (current : layer.currentQ0Task = some task) :
    StepQ0 layer (.confirm 0 type written)
      (base.resumeQ0 task (if written then .written else .failedWriting) task.msg)
  | pull {msg : Message} {task : Task} (working : layer.working) (current : layer.currentQ0Task = some task)
    (plain : msg.common.type ≠ .publish) (zero : getMessageId msg = 0) :
    StepQ0 layer (.pull msg) (layer.resumeQ0 {task with msg := some msg} .ok (some msg))
  | connectTimeout {task : Task} (current : layer.currentQ0Task = some task) (pending : task.timeout.isSome)
    (connect : task.scenario = .connect) :
    StepQ0 layer (.taskTimeout task.addr) (layer.finishQ0 (doMqttConnectTimeout layer {task with timeout := none}))
  | timeout {task : Task} (current : layer.currentQ0Task = some task) (pending : task.timeout.isSome)
    (other : task.scenario ≠ .connect) :
    StepQ0 layer (.taskTimeout task.addr) (layer.resumeQ0 {task with timeout := none} .timeout none)
  | keepalive {base : LogicLayer} (scheduled : layer.keepaliveEvent = true) (working : layer.working)
    (same : Undisturbed {layer with keepaliveEvent := false} base) :
    StepQ0 layer .keepaliveOnce (base.queueQ0Task (keepaliveTask layer.nextAddr))
  | keepaliveLost {after : LogicLayer} (scheduled : layer.keepaliveEvent = true) (closed : ¬ layer.working)
    (same : Undisturbed {layer with keepaliveEvent := false} after) : StepQ0 layer .keepaliveOnce after
  | connect {base : LogicLayer} (same : Undisturbed layer base) (working : layer.working) :
    StepQ0 layer (.connect .ok) (base.queueQ0Task (connectTask layer.nextAddr))
  | connectFailed {state : XiState} (failed : state ≠ .ok) :
    StepQ0 layer (.connect state) (layer.perform [.connectNext state])
  | terminal {state : XiState} (working : layer.working) :
    StepQ0 layer (.pullFailed state) (layer.perform [.closeThis .backoffTerminal])
  | init (connection : ConnectionData) : StepQ0 layer (.init connection) (layer.init connection)
  | close (state : XiState) : StepQ0 layer (.close state) (layer.close state)
  | closeExternally (state : XiState) : StepQ0 layer (.closeExternally state) (layer.closeExternally state)
  | setConnectionState (state : ConnectionState) :
    StepQ0 layer (.setConnectionState state)
      {layer with connection := {layer.connection with connectionState := state}}

section Commands

/-! Which effects a command has, and that it stays the task it is. -/

/-- The effects of the commands of a scenario. -/
def Effect.belongs (scenario : Scenario) : Effect → Bool
  | .connectNext _ | .opened => scenario = .connect
  | .scheduleKeepalive => scenario = .connect || scenario = .keepalive
  | .closePrev _ => scenario = .keepalive || scenario = .shutdown
  | .started _ => scenario = .publish
  | effect => effect.quiet

theorem Effect.belongs_of_quiet {scenario : Scenario} {effect : Effect} (quiet : effect.quiet = true) :
    effect.belongs scenario = true := by
  cases effect <;> first | rfl | exact absurd quiet Bool.false_ne_true

theorem belongs_of_quiet {scenario : Scenario} {effects : List Effect} (quiet : effects.all Effect.quiet = true) :
    effects.all (Effect.belongs scenario) = true :=
  List.all_eq_true.mpr fun effect member => Effect.belongs_of_quiet (List.all_eq_true.mp quiet effect member)

/-- The outcome of a command for its task. -/
structure Outcome.Command (task : Task) (outcome : Outcome) : Prop where
  effects : outcome.effects.all (Effect.belongs task.scenario) = true
  addr : ∀ result, outcome.task = some result → result.addr = task.addr
  scenario : ∀ result, outcome.task = some result → result.scenario = task.scenario

namespace Outcome.Command

variable {task result : Task} {effects : List Effect} {fault : Bool}

theorem gone (belong : effects.all (Effect.belongs task.scenario) = true) :
    Command task {task := none,effects := effects,fault := fault} :=
  ⟨belong,fun _ none => absurd none.symm (Option.some_ne_none _),fun _ none => absurd none.symm (Option.some_ne_none _)⟩

theorem stays (belong : effects.all (Effect.belongs task.scenario) = true) (addr : result.addr = task.addr)
    (scenario : result.scenario = task.scenario) : Command task {task := some result,effects := effects,fault := fault} :=
  ⟨belong,fun _ same => Option.some.inj same ▸ addr,fun _ same => Option.some.inj same ▸ scenario⟩

theorem abort (task : Task) : Command task (abort task) := stays rfl rfl rfl

end Outcome.Command

variable (layer : LogicLayer) (task : Task) (state : XiState) (msg : Option Message)

theorem belongs_free (scenario : Scenario) : task.free.all (Effect.belongs scenario) = true :=
  belongs_of_quiet (free_quiet task)

theorem belongs_freeMessage (scenario : Scenario) : (freeMessage msg).all (Effect.belongs scenario) = true :=
  belongs_of_quiet (freeMessage_quiet msg)

theorem belongs_callback (scenario : Scenario) : (task.deferUsersCallback state).all (Effect.belongs scenario) = true :=
  belongs_of_quiet (deferUsersCallback_quiet task state)

theorem doMqttConnect_command (connect : task.scenario = .connect) :
    (doMqttConnect layer task state msg).Command task := by
  have free := belongs_free task .connect
  have drop := belongs_freeMessage msg .connect
  rw [← connect] at drop
  unfold doMqttConnect connectReply
  split
  · exact .stays drop rfl rfl
  split
  iterate 2
    split
    · exact .gone (by rw [connect]; exact free)
    · exact .stays rfl rfl rfl
  · split
    · exact .stays rfl rfl rfl
    · exact .gone (by simp [List.all_append,Effect.belongs,connect,free,connect ▸ drop])
  · split
    · exact .abort task
    split
    · split
      · apply Outcome.Command.gone
        split <;> simp [Effect.belongs,Effect.quiet,connect,free]
      · exact .gone (by simp [Effect.belongs,Effect.quiet,connect,free])
    · exact .gone (by simp [Effect.belongs,Effect.quiet,connect,free])

theorem doMqttConnectTimeout_command (connect : task.scenario = .connect) :
    (doMqttConnectTimeout layer task).Command task := by
  have free := belongs_free task .connect
  unfold doMqttConnectTimeout
  split
  · exact .gone (by simp [Effect.belongs,connect,free])
  · exact .abort task

theorem doMqttPublishQ0_command (publish : task.scenario = .publish) :
    (doMqttPublishQ0 layer task state msg).Command task := by
  have free := belongs_free task .publish
  have freeData : task.freeData.all (Effect.belongs .publish) = true := belongs_of_quiet (freeData_quiet task)
  have callback := fun state => belongs_callback task state .publish
  unfold doMqttPublishQ0
  split
  · exact .abort task
  split
  · exact .stays rfl rfl rfl
  split
  iterate 2
    split
    · split
      · exact .gone (by simp [List.all_append,Effect.belongs,publish,free,callback])
      · exact .stays (by simp [Effect.belongs,Effect.quiet,publish]) rfl rfl
    · exact .abort task
  iterate 2
    exact .gone (by simp [List.all_append,Effect.belongs,Effect.quiet,publish,freeData,callback])

theorem doMqttKeepaliveTask_command (keepalive : task.scenario = .keepalive) :
    (doMqttKeepaliveTask layer task state msg).Command task := by
  have free := belongs_free task .keepalive
  have drop := belongs_freeMessage msg .keepalive
  unfold doMqttKeepaliveTask
  split
  · exact .stays (by rw [keepalive]; exact drop) rfl rfl
  split
  · exact .stays rfl rfl rfl
  · exact .stays rfl rfl rfl
  · split
    · exact .abort task
    · exact .stays rfl rfl rfl
  · split
    · split
      · exact .abort task
      · exact .stays (by simp [Effect.belongs,keepalive]) rfl rfl
    split
    · exact .gone (by rw [keepalive]; exact free)
    split
    · exact .abort task
    split
    · apply Outcome.Command.gone
      split <;> simp [Effect.belongs,Effect.quiet,keepalive,free]
    · exact .gone (by simp [Effect.belongs,Effect.quiet,keepalive,free])

theorem doShutdown_command (shutdown : task.scenario = .shutdown) : (doShutdown layer task msg).Command task := by
  have free := belongs_free task .shutdown
  have drop := belongs_freeMessage msg .shutdown
  unfold doShutdown
  split
  · exact .stays (by rw [shutdown]; exact drop) rfl rfl
  split
  · exact .stays rfl rfl rfl
  · exact .stays rfl rfl rfl
  · exact .gone (by simp [Effect.belongs,shutdown,free])
  · exact .gone (by simp [Effect.belongs,shutdown,free])

theorem executeQ0_command : (layer.executeQ0 task state msg).Command task := by
  unfold LogicLayer.executeQ0
  split
  · exact doMqttConnect_command layer task state msg ‹_›
  · exact doMqttPublishQ0_command layer task state msg ‹_›
  · exact doMqttKeepaliveTask_command layer task state msg ‹_›
  · exact doShutdown_command layer task msg ‹_›
  · exact .abort task

/-- What an observation sees of a command, where it is blind to the effects of its scenario. -/
theorem Outcome.Command.observe {α : Type*} {f : Effect → Option α} {outcome : Outcome} {task : Task}
    (command : outcome.Command task) (blind : ∀ effect : Effect, effect.belongs task.scenario = true → f effect = none) :
    observe f outcome.effects = [] :=
  List.filterMap_eq_nil_iff.mpr fun effect member => blind effect (List.all_eq_true.mp command.effects effect member)

end Commands

section Cases

variable {layer : LogicLayer} (allocs : Allocations)

theorem working_iff : layer.working ↔ (layer.notOperational || !layer.hasData) = false := by
  rw [LogicLayer.working,Bool.or_eq_false_iff,Bool.not_eq_false']

theorem not_working_iff : ¬ layer.working ↔ (layer.notOperational || !layer.hasData) = true := by
  rw [working_iff,Bool.not_eq_false]

theorem undisturbed_next : Undisturbed layer {layer with nextAddr := layer.nextAddr + 1} :=
  ⟨rfl,rfl,rfl,rfl,rfl,rfl,List.Subset.refl _,Nat.le_succ _,[],rfl,(List.append_nil _).symm⟩

theorem undisturbed_sending (sending : List (UInt16 × MqttType)) :
    Undisturbed layer {layer with sending := sending} :=
  ⟨rfl,rfl,rfl,rfl,rfl,rfl,List.Subset.refl _,le_rfl,[],rfl,(List.append_nil _).symm⟩

theorem undisturbed_queueQ12Task (task : Task) : Undisturbed layer (layer.queueQ12Task allocs task) := by
  unfold LogicLayer.queueQ12Task
  have queued : Undisturbed layer {layer with
      lastMsgId := layer.lastMsgId + 1
      q12TasksQueue := layer.q12TasksQueue ++ [{task with msgId := layer.lastMsgId + 1}]} :=
    ⟨rfl,rfl,rfl,rfl,rfl,rfl,List.Subset.refl _,le_rfl,[],rfl,(List.append_nil _).symm⟩
  simp only
  split
  · exact queued.trans (.resumeQ12 ..)
  · exact queued

theorem step_pushRequest (request : Request) : StepQ0 layer (.push request) (layer.pushRequest allocs request) := by
  unfold LogicLayer.pushRequest LogicLayer.push
  split
  · rename_i closed
    refine .aside (.trans undisturbed_next (.perform (free_quiet _))) ?_
    have closed : ¬ layer.working := not_working_iff.mpr closed
    intro reaches
    unfold Event.reachesQ0 at reaches
    split at reaches
    · exact closed reaches
    all_goals contradiction
  rename_i working
  have works : layer.working := working_iff.mpr (eq_false_of_ne_true working)
  rw [if_neg (by decide)]
  cases request with
  | publish topic data qos retain callback =>
    cases qos with
    | atMostOnce => exact .queue undisturbed_next works rfl (Nat.lt_succ_self _)
    | atLeastOnce => exact .aside (.trans undisturbed_next (undisturbed_queueQ12Task allocs _)) id
    | exactlyOnce =>
      let task := (Request.publish topic data .exactlyOnce retain callback).make layer.nextAddr
      have freed : Undisturbed layer ({layer with nextAddr := layer.nextAddr + 1}.perform task.freeData) :=
        .trans undisturbed_next (.perform (freeData_quiet task))
      exact .aside (freed.trans (undisturbed_queueQ12Task allocs {task with data := none})) id
  | subscribe topic qos handler session =>
    exact .aside (.trans undisturbed_next (undisturbed_queueQ12Task allocs _)) id
  | shutdown =>
    simp only [Request.make]
    split
    · exact .aside (.trans undisturbed_next (.perform (free_quiet _))) id
    · exact .queue undisturbed_next works rfl (Nat.lt_succ_self _)

theorem step_confirmed (msgId : UInt16) (type : MqttType) (written : Bool) :
    StepQ0 layer (.confirm msgId type written) (layer.confirmed allocs msgId type written) := by
  unfold LogicLayer.confirmed LogicLayer.confirm
  have same : Undisturbed layer _ := undisturbed_sending (layer.sending.erase (msgId,type))
  split
  · rename_i closed
    exact .aside same fun reaches => not_working_iff.mpr closed reaches.2.1
  rename_i working
  have works : layer.working := working_iff.mpr (eq_false_of_ne_true working)
  split
  · rename_i zero
    subst zero
    split
    · rename_i task current
      exact .confirm same works current
    · rename_i current
      refine .aside same fun reaches => ?_
      exact absurd reaches.2.2 (by rw [show layer.currentQ0Task = none from current]; exact Bool.false_ne_true)
  · rename_i nonzero
    refine .aside (same.trans ?_) fun reaches => nonzero reaches.1
    split
    · split
      · exact .resumeRecv ..
      · exact .refl _
    · split
      · exact .resumeQ12 ..
      · exact .refl _
    · exact .refl _

theorem step_pull (msg : Message) : StepQ0 layer (.pull msg) (layer.pull allocs msg) := by
  unfold LogicLayer.pull
  split
  · rename_i closed
    exact .aside (.perform rfl) fun reaches => not_working_iff.mpr closed reaches.2.2.1
  rename_i working
  have works : layer.working := working_iff.mpr (eq_false_of_ne_true working)
  split
  · rename_i publish
    exact .aside (.onPublishRecieved msg) fun reaches => reaches.1 publish
  rename_i plain
  split
  · rename_i positive
    refine .aside ?_ fun reaches => ?_
    · split
      · split
        · exact .resumeRecv ..
        · exact .perform rfl
      · split
        · exact .resumeQ12 ..
        · exact .perform rfl
      · exact .perform rfl
    · rw [reaches.2.1] at positive
      exact absurd positive (by decide)
  · rename_i zero
    have zero : getMessageId msg = 0 := by
      rw [← UInt16.toNat_inj]
      exact Nat.eq_zero_of_not_pos fun positive => zero (UInt16.lt_iff_toNat_lt.mpr positive)
    split
    · rename_i task current
      exact .pull works current plain zero
    · rename_i current
      refine .aside (.failIf true) fun reaches => ?_
      exact absurd reaches.2.2.2 (by rw [current]; exact Bool.false_ne_true)

theorem step_taskTimeout (addr : Nat) : StepQ0 layer (.taskTimeout addr) (layer.taskTimeout allocs addr) := by
  unfold LogicLayer.taskTimeout
  split
  · rename_i task found
    obtain ⟨current,pending⟩ := Option.filter_eq_some_iff.mp found
    obtain ⟨same,pending⟩ := Bool.and_eq_true_iff.mp pending
    rw [← of_decide_eq_true same]
    simp only
    split
    · rename_i connect
      exact .connectTimeout current pending connect
    · rename_i other
      exact .timeout current pending other
  · rename_i missing
    have past : ¬ Event.reachesQ0 layer (.taskTimeout addr) := by
      rintro ⟨task,current,same,pending⟩
      rw [current,Option.filter_some,if_pos (by rw [same,pending]; simp)] at missing
      exact absurd missing (Option.some_ne_none task)
    split
    · split
      · exact .aside (.resumeQ12 ..) past
      · exact .aside (.refl _) past
    · exact .aside (.refl _) past

theorem step_keepaliveOnce : StepQ0 layer .keepaliveOnce layer.doMqttKeepaliveOnce := by
  unfold LogicLayer.doMqttKeepaliveOnce
  split
  · rename_i scheduled
    split
    · rename_i data
      unfold LogicLayer.push
      split
      · rename_i closed
        refine .keepaliveLost scheduled (not_working_iff.mpr closed) ?_
        exact .trans (@undisturbed_next {layer with keepaliveEvent := false}) (.perform (free_quiet _))
      rename_i working
      have works : layer.working := working_iff.mpr (eq_false_of_ne_true working)
      rw [if_neg (by decide)]
      exact .keepalive scheduled works undisturbed_next
    · rename_i noData
      exact .keepaliveLost scheduled (fun working => noData working.2) (.refl _)
  · exact .aside (.refl _) id

theorem step_connect (state : XiState) : StepQ0 layer (.connect state) (layer.connect state) := by
  unfold LogicLayer.connect
  split
  · rename_i failed
    exact .connectFailed failed
  · rename_i ok
    have ok : state = .ok := not_not.mp ok
    subst ok
    unfold LogicLayer.push
    split
    · exact .aside (.trans undisturbed_next (.perform (free_quiet _))) id
    rename_i working
    have works : layer.working := working_iff.mpr (eq_false_of_ne_true working)
    rw [if_neg (by decide)]
    exact .connect undisturbed_next works

/-- Every call of a layer without a fault is one of the cases. -/
theorem step_cases (running : layer.fault = false) (event : Event) : StepQ0 layer event (step allocs layer event) := by
  unfold step
  rw [if_neg (by rw [running]; exact Bool.false_ne_true)]
  cases event with
  | push request => exact step_pushRequest allocs request
  | confirm msgId type written => exact step_confirmed allocs msgId type written
  | pull msg => exact step_pull allocs msg
  | pullFailed state =>
    simp only [LogicLayer.pullFailed]
    split
    · exact .aside (.refl _) id
    rename_i working
    have works : layer.working := working_iff.mpr (eq_false_of_ne_true working)
    split
    · exact .terminal works
    · exact .aside (.refl _) id
  | taskTimeout addr => exact step_taskTimeout allocs addr
  | orphanTimeout addr =>
    exact .aside (.orphanTimeout addr) id
  | keepaliveOnce => exact step_keepaliveOnce
  | init connection => exact .init connection
  | connect state => exact step_connect state
  | postConnect => exact .aside (.postConnect allocs) id
  | close state => exact .close state
  | closeExternally state => exact .closeExternally state
  | setConnectionState state => exact .setConnectionState state
  | subscriptionCall => exact .aside .runSubscriptionCall id

end Cases

section Rule

theorem perform_opening {layer : LogicLayer} {effects : List Effect}
    (opening : (layer.perform effects).connection.connectionState = .opening) :
    layer.connection.connectionState = .opening := by
  induction effects generalizing layer with
  | nil => exact opening
  | cons effect effects ih =>
    rw [LogicLayer.perform_cons] at opening
    have before := ih opening
    cases effect with
    | opened => exact absurd before ConnectionState.noConfusion
    | _ => exact before

/-- A relation between the layer, its current QoS 0 task and the queue behind it that survives the choice of
the next task. -/
structure StableQ0 (J : LogicLayer → Option Task → List Task → Prop) : Prop where
  blind : ∀ layer current queue current' queue', J layer current queue →
    J {layer with currentQ0Task := current',q0TasksQueue := queue'} current queue
  rotate : ∀ layer task queue, J layer none (task :: queue) → layer.connection.connectionState = .opening →
    task.scenario ≠ .connect → J layer none (queue ++ [task])
  start : ∀ layer task queue, J layer none (task :: queue) →
    (layer.connection.connectionState = .opening → task.scenario = .connect) →
    J ((layer.perform (layer.executeQ0 task .ok task.msg).effects).failIf (layer.executeQ0 task .ok task.msg).fault)
      (layer.executeQ0 task .ok task.msg).task queue

def HoldsQ0 (J : LogicLayer → Option Task → List Task → Prop) (layer : LogicLayer) : Prop :=
  J layer layer.currentQ0Task layer.q0TasksQueue

variable {J : LogicLayer → Option Task → List Task → Prop}

theorem HoldsQ0.running {layer : LogicLayer} {current : Option Task} (holds : HoldsQ0 J layer)
    (same : layer.currentQ0Task = current) : J layer current layer.q0TasksQueue := by
  rw [← same]
  exact holds

theorem HoldsQ0.of_same {layer after : LogicLayer} (current : after.currentQ0Task = layer.currentQ0Task)
    (queue : after.q0TasksQueue = layer.q0TasksQueue) (holds : J after layer.currentQ0Task layer.q0TasksQueue) :
    HoldsQ0 J after := by
  rw [HoldsQ0,current,queue]
  exact holds

variable (stable : StableQ0 J)
include stable

theorem runQ0Tasks_holds {layer : LogicLayer} {queue : List Task} (start : J layer none queue) :
    HoldsQ0 J (layer.runQ0Tasks queue) := by
  induction queue generalizing layer with
  | nil => exact stable.blind layer none [] none [] start
  | cons task queue ih =>
    unfold LogicLayer.runQ0Tasks
    split
    · rename_i waits
      exact stable.blind _ _ _ _ _ (stable.rotate layer task queue start waits.1 waits.2)
    · rename_i goes
      have next := stable.start layer task queue start fun opening => not_not.mp fun other => goes ⟨opening,other⟩
      simp only
      split
      · rename_i result same
        rw [same] at next
        exact stable.blind _ _ _ _ _ next
      · rename_i same
        rw [same] at next
        exact ih next

theorem finishQ0_holds {layer : LogicLayer} {outcome : Outcome}
    (next : J ((layer.perform outcome.effects).failIf outcome.fault) outcome.task layer.q0TasksQueue) :
    HoldsQ0 J (layer.finishQ0 outcome) := by
  unfold LogicLayer.finishQ0
  simp only
  split
  · rename_i result same
    rw [same] at next
    have kept : ((layer.perform outcome.effects).failIf outcome.fault).q0TasksQueue = layer.q0TasksQueue :=
      LogicLayer.perform_q0TasksQueue
    unfold HoldsQ0
    simp only [kept]
    have := stable.blind _ _ _ (some result) layer.q0TasksQueue next
    rw [← kept] at this
    exact kept ▸ this
  · rename_i same
    rw [same] at next
    have kept : ((layer.perform outcome.effects).failIf outcome.fault).q0TasksQueue = layer.q0TasksQueue :=
      LogicLayer.perform_q0TasksQueue
    unfold LogicLayer.runNextQ0Task
    rw [kept]
    exact runQ0Tasks_holds stable next

/-- The queue with a new task, by its priority. -/
def enqueue (task : Task) (queue : List Task) : List Task :=
  match task.priority with
  | .normal => queue ++ [task]
  | .immediate => task :: queue

theorem queueQ0Task_holds {layer : LogicLayer} {task : Task}
    (queued : J layer layer.currentQ0Task (enqueue task layer.q0TasksQueue)) : HoldsQ0 J (layer.queueQ0Task task) := by
  unfold LogicLayer.queueQ0Task
  simp only
  split
  · rename_i current same
    have kept := stable.blind layer layer.currentQ0Task _ layer.currentQ0Task (enqueue task layer.q0TasksQueue) queued
    exact kept
  · rename_i none
    have none : layer.currentQ0Task = .none := none
    rw [none] at queued
    exact runQ0Tasks_holds stable (stable.blind layer .none _ layer.currentQ0Task
      (enqueue task layer.q0TasksQueue) queued)

end Rule

/-- The layer between its initialisation and its CONNECT. -/
def openingLayer (connection : ConnectionRequest) : LogicLayer :=
  {layerState := .connecting,connection := {toConnectionRequest := connection,connectionState := .opening},hasData := true}

def acceptingConnack : Message := {common := {commonValue := Common.ofBits 0 0 0 .connack}}

def pingresp : Message := {common := {commonValue := Common.ofBits 0 0 0 .pingresp}}

/-- The events from the first init to an open connection. -/
def openedConnection (connection : ConnectionRequest) : List Event :=
  [.init {toConnectionRequest := connection},.connect .ok,.confirm 0 .connect true,.pull acceptingConnack]

end XivelyClient.Mqtt.Logic
