import XivelyClient.Mqtt.Logic.Incoming

/-! The way of a subscription from its request to its handler. -/
namespace XivelyClient.Mqtt.Logic

/-- What a user's handler is told about the subscription at an address. -/
def Effect.tells (addr : Nat) : Effect → Option XiState
  | .subscriptionCall data _ state => if data.block = addr then some state else none
  | _ => none

/-- The user's handler is told once at most, and is told when the task is gone; then the handler of the topic is
registered if the subscription was accepted, and only then. The data is freed once at most, and not while the
vector or a pending call refers to it. -/
structure LogicLayer.FollowedThrough (layer : LogicLayer) (addr : Nat) : Prop where
  once : (observe (Effect.tells addr) layer.effects).length ≤ 1
  told : (∀ task ∈ layer.q12TasksQueue, task.addr ≠ addr) → ∃ state, observe (Effect.tells addr) layer.effects = [state] ∧
    (state = .mqttSubscriptionSuccessfull ∨ state = .mqttSubscriptionFailed) ∧
    ((∃ data ∈ layer.handlersForTopics, data.block = addr) ↔ state = .mqttSubscriptionSuccessfull)
  freed : layer.effects.count (.freeData addr) ≤ 1
  kept : .freeData addr ∈ layer.effects →
    (∀ data ∈ layer.handlersForTopics, data.block ≠ addr) ∧ ∀ call ∈ layer.calls, call.data.block ≠ addr

/-- The layer with the addresses of the subscriptions that it has queued. -/
structure Subscribing where
  layer : LogicLayer
  subscribed : List Nat := []

namespace Subscribing

def queued (layer : LogicLayer) : Event → List Nat
  | .push (.subscribe _ _ _ _) => if layer.notOperational || !layer.hasData then [] else [layer.nextAddr]
  | _ => []

def step (subscribing : Subscribing) (call : Allocations × Event) : Subscribing :=
  if subscribing.layer.fault then subscribing
  else {
    layer := stepWith subscribing.layer call
    subscribed := subscribing.subscribed ++ queued subscribing.layer call.2}

end Subscribing

/-- The calls on one connection. -/
def Event.staysOpen : Event → Prop
  | .init _ | .postConnect | .closeExternally _ => False
  | _ => True

/-- A subscription that waits for its SUBACK gets it, and there is room for its handler. -/
def Event.answersSubscribe (layer : LogicLayer) : Event → Prop
  | .confirm msgId type _ => classMsgTypeSending type = .toServer → ∀ task, findTask msgId layer.q12TasksQueue = some task →
    task.scenario = .subscribe → task.cs ≠ .reply
  | .pull msg => classMsgTypeReceiving msg.common.type = .toServer →
    ∀ task, findTask (getMessageId msg) layer.q12TasksQueue = some task → task.scenario = .subscribe → task.cs = .reply →
      msg.common.type = .suback ∧ ∀ topic, msg.suback.topics = some topic → topic.payload ≠ subackFailed →
        layer.handlersForTopics.length < vectorMaxCapacity
  | _ => True

/-- Nobody knows of the address. -/
structure LogicLayer.Unused (layer : LogicLayer) (addr : Nat) : Prop where
  elsewhere : Elsewhere addr layer layer.currentQ0Task layer.q0TasksQueue
  effects : mentions addr layer.effects = []
  handlers : ∀ data ∈ layer.handlersForTopics, data.block ≠ addr
  calls : ∀ call ∈ layer.calls, call.data.block ≠ addr

/-- A connection on which nothing is queued for QoS 1 and 2 yet. -/
structure LogicLayer.Unsubscribed (layer : LogicLayer) : Prop where
  empty : layer.q12TasksQueue = []
  unused : ∀ addr, layer.nextAddr ≤ addr → layer.Unused addr

section Coroutine

variable {layer : LogicLayer} {addr : Nat} {task : Task} {data : SubscribeData} {state : XiState} {msg : Option Message}

/-- How a subscription goes on: it stays and says nothing, or it ends with the word of the server. -/
inductive Subscribes (addr : Nat) (data : SubscribeData) : Outcome → Prop
  | stays {outcome : Outcome} {result : Task} (same : outcome.task = some result)
    (silent : outcome.effects.all (·.about = none) = true) : Subscribes addr data outcome
  | accepted {msg : Message} {status : UInt8} {fault : Bool} : Subscribes addr data {
      task := none
      effects := [.freeMessage msg,.registerHandler data,.subscriptionCall data status .mqttSubscriptionSuccessfull,
        .freeTask addr]
      fault := fault}
  | refused {msg : Message} {status : UInt8} {fault : Bool} : Subscribes addr data {
      task := none
      effects := [.freeMessage msg,.subscriptionCall data status .mqttSubscriptionFailed,.freeTask addr]
      fault := fault}

theorem subscribeSend_subscribes (own : task.data = some (.subscribe data)) (dup : Nat) :
    Subscribes addr data (subscribeSend {} task dup) := by
  unfold subscribeSend
  rw [if_neg (by decide),own]
  simp only
  unfold fillWithSubscribeData
  exact .stays rfl rfl

theorem subscribeReply_subscribes (own : task.data = some (.subscribe data)) (fine : state = .ok)
    (suback : ∀ received, msg = some received → received.common.type = .suback ∧
      ∀ topic, received.suback.topics = some topic → topic.payload ≠ subackFailed →
        layer.handlersForTopics.length < vectorMaxCapacity) :
    Subscribes task.addr data (subscribeReply layer {} task state msg) := by
  unfold subscribeReply
  rw [if_neg (not_not.mpr fine)]
  cases msg with
  | none => exact .stays rfl rfl
  | some received =>
    obtain ⟨type,room⟩ := suback received rfl
    simp only
    rw [if_neg (not_not.mpr type)]
    split
    · rename_i topic other listed mine
      cases own.symm.trans mine
      unfold subscribeSuback
      by_cases failed : topic.payload = subackFailed
      · rw [if_pos failed,if_pos rfl]
        exact .refused
      · have room : ¬ vectorMaxCapacity ≤ layer.handlersForTopics.length := not_le.mpr (room topic listed failed)
        rw [if_neg failed,if_neg (by simpa using room),if_pos rfl]
        exact .accepted
    · exact .stays rfl rfl

/-- What a subscription is resumed with does not make it leave without a word. -/
def Answers (layer : LogicLayer) (task : Task) (state : XiState) (msg : Option Message) : Prop :=
  task.cs = .reply → state = .timeout ∨ state = .resend ∨ (state = .ok ∧
    ∀ received, msg = some received → received.common.type = .suback ∧
      ∀ topic, received.suback.topics = some topic → topic.payload ≠ subackFailed →
        layer.handlersForTopics.length < vectorMaxCapacity)

theorem doMqttSubscribe_subscribes (own : task.data = some (.subscribe data)) (answers : Answers layer task state msg) :
    Subscribes task.addr data (doMqttSubscribe layer {} task state msg) := by
  unfold doMqttSubscribe
  split
  · exact .stays rfl rfl
  split
  · refine .stays rfl ?_
    cases msg <;> rfl
  cases cs : task.cs with
  | start => exact subscribeSend_subscribes own _
  | sent =>
    simp only
    split
    · exact .stays rfl rfl
    split
    · split
      · exact .stays rfl rfl
      · exact .stays rfl rfl
    · exact .stays rfl rfl
  | retry =>
    simp only
    split
    · exact .stays rfl rfl
    · exact subscribeSend_subscribes own 1
  | reply =>
    simp only
    split
    · split
      · exact .stays rfl rfl
      · exact subscribeSend_subscribes own 1
    rename_i patient
    split
    · refine subscribeSend_subscribes ?_ 1
      exact own
    · rename_i first
      obtain ⟨fine,suback⟩ := ((answers cs).resolve_left patient).resolve_left first
      exact @subscribeReply_subscribes layer {task with timeout := none,cs := .reply} data state msg own fine suback

end Coroutine

section Ways

variable {addr : Nat} {layer after : LogicLayer} {effects : List Effect} {queue : List Task} {task : Task}

/-- The handler that an effect registers, and the call that it leaves. -/
def Effect.registered : Effect → Option SubscribeData
  | .registerHandler data => some data
  | _ => none

def Effect.called : Effect → Option SubscriptionCall
  | .subscriptionCall data status state => some ⟨data,status,state⟩
  | _ => none

theorem perform_registered : (layer.perform effects).handlersForTopics =
    layer.handlersForTopics ++ observe Effect.registered effects := by
  induction effects generalizing layer with
  | nil => exact (List.append_nil _).symm
  | cons effect effects ih =>
    rw [LogicLayer.perform_cons,ih,observe_cons]
    cases effect <;> first | rfl | exact List.append_assoc ..

theorem perform_called : (layer.perform effects).calls = layer.calls ++ observe Effect.called effects := by
  induction effects generalizing layer with
  | nil => exact (List.append_nil _).symm
  | cons effect effects ih =>
    rw [LogicLayer.perform_cons,ih,observe_cons]
    cases effect <;> first | rfl | exact List.append_assoc ..

/-- The task of a subscription is in the queue, and nobody else knows of it. -/
structure Unanswered (addr : Nat) (layer : LogicLayer) : Prop where
  queued : ∃ task ∈ layer.q12TasksQueue, task.addr = addr ∧ task.scenario = .subscribe
  effects : mentions addr layer.effects = []
  handlers : ∀ data ∈ layer.handlersForTopics, data.block ≠ addr
  calls : ∀ call ∈ layer.calls, call.data.block ≠ addr

structure Accepted (addr : Nat) (layer : LogicLayer) : Prop where
  gone : ∀ task ∈ layer.q12TasksQueue, task.addr ≠ addr
  effects : ∃ data status, data.block = addr ∧ data ∈ layer.handlersForTopics ∧ mentions addr layer.effects =
    [.registerHandler data,.subscriptionCall data status .mqttSubscriptionSuccessfull,.freeTask addr]
  calls : ∀ call ∈ layer.calls, call.data.block = addr → call.state ≠ .mqttSubscriptionFailed

/-- The call that tells of the refusal frees the data, and there is one. -/
structure Refused (addr : Nat) (layer : LogicLayer) : Prop where
  gone : ∀ task ∈ layer.q12TasksQueue, task.addr ≠ addr
  handlers : ∀ data ∈ layer.handlersForTopics, data.block ≠ addr
  effects : ∃ data status freed, data.block = addr ∧ mentions addr layer.effects =
    [.subscriptionCall data status .mqttSubscriptionFailed,.freeTask addr] ++ freed ∧
    ((freed = [] ∧ layer.calls.countP (·.data.block = addr) = 1) ∨
      (freed = [.freeData addr] ∧ ∀ call ∈ layer.calls, call.data.block ≠ addr))
  calls : ∀ call ∈ layer.calls, call.data.block = addr → call.state = .mqttSubscriptionFailed

def OnItsWay (addr : Nat) (layer : LogicLayer) : Prop := Unanswered addr layer ∨ Accepted addr layer ∨ Refused addr layer

/-- What the way of a subscription depends on. -/
structure SameWay (addr : Nat) (layer after : LogicLayer) : Prop where
  queue : ∀ task, task.addr = addr → task.scenario = .subscribe → task ∈ layer.q12TasksQueue → 
    ∃ other ∈ after.q12TasksQueue, other.addr = addr ∧ other.scenario = .subscribe
  gone : (∀ task ∈ layer.q12TasksQueue, task.addr ≠ addr) → ∀ task ∈ after.q12TasksQueue, task.addr ≠ addr
  effects : mentions addr after.effects = mentions addr layer.effects
  handlers : ∃ more, after.handlersForTopics = layer.handlersForTopics ++ more ∧ ∀ data ∈ more, data.block ≠ addr
  calls : ∃ more, after.calls = layer.calls ++ more ∧ ∀ call ∈ more, call.data.block ≠ addr

theorem OnItsWay.same (way : OnItsWay addr layer) (same : SameWay addr layer after) : OnItsWay addr after := by
  obtain ⟨handlers,more,others⟩ := same.handlers
  obtain ⟨calls,more',others'⟩ := same.calls
  have calls_ne (away : ∀ call ∈ layer.calls, call.data.block ≠ addr) : ∀ call ∈ after.calls, call.data.block ≠ addr := by
    rw [more']
    exact List.forall_mem_append.mpr ⟨away,others'⟩
  have handlers_ne (away : ∀ data ∈ layer.handlersForTopics, data.block ≠ addr) :
      ∀ data ∈ after.handlersForTopics, data.block ≠ addr := by
    rw [more]
    exact List.forall_mem_append.mpr ⟨away,others⟩
  have calls_of {P : SubscriptionCall → Prop} (own : ∀ call ∈ layer.calls, call.data.block = addr → P call) :
      ∀ call ∈ after.calls, call.data.block = addr → P call := by
    rw [more']
    exact List.forall_mem_append.mpr ⟨own,fun call member mine => absurd mine (others' call member)⟩
  rcases way with ⟨⟨task,member,own,subscribe⟩,effects,away,away'⟩ | ⟨gone,effects,own⟩ | ⟨gone,away,effects,own⟩
  · exact .inl ⟨same.queue task own subscribe member,same.effects.trans effects,handlers_ne away,calls_ne away'⟩
  · refine .inr (.inl ⟨same.gone gone,?_,calls_of own⟩)
    obtain ⟨data,status,block,member,effects⟩ := effects
    refine ⟨data,status,block,?_,same.effects.trans effects⟩
    rw [more]
    exact List.mem_append_left _ member
  · refine .inr (.inr ⟨same.gone gone,handlers_ne away,?_,calls_of own⟩)
    obtain ⟨data,status,freed,block,effects,pending⟩ := effects
    refine ⟨data,status,freed,block,same.effects.trans effects,pending.imp ?_ ?_⟩
    · intro ⟨unfreed,one⟩
      refine ⟨unfreed,?_⟩
      rw [more',List.countP_append,one,List.countP_eq_zero.mpr]
      exact fun call member mine => others' call member (of_decide_eq_true mine)
    · exact And.imp_right calls_ne

end Ways

section Timeouts

variable (layer : LogicLayer) (allocs : Allocations) (state : XiState) (msg : Option Message)

/-- A time event of a queued task tells it of a timeout, or to try again. -/
def Task.Timed (task : Task) : Prop := ∀ state, task.timeout = some state → state = .timeout ∨ state = .resend

theorem timed_none {task : Task} (none : task.timeout = none) : task.Timed :=
  fun state same => absurd (none.symm.trans same) (Option.some_ne_none state).symm

variable {task : Task} (timed : task.Timed)
include timed

theorem publishQ1Send_timed (dup : Nat) : ∀ result, (publishQ1Send task dup).task = some result → result.Timed := by
  unfold publishQ1Send publishQ1Error Outcome.abort
  repeat' split
  all_goals
    intro result same
    cases same
  all_goals exact timed

theorem subscribeSend_timed (dup : Nat) :
    ∀ result, (subscribeSend allocs task dup).task = some result → result.Timed := by
  unfold subscribeSend subscribeError Outcome.abort
  repeat' split
  all_goals
    intro result same
    cases same
  all_goals exact timed

theorem publishQ1Reply_timed : ∀ result, (publishQ1Reply task state msg).task = some result → result.Timed := by
  unfold publishQ1Reply publishQ1Error Outcome.abort
  repeat' split
  all_goals
    intro result same
    cases same
  all_goals exact timed

theorem subscribeReply_timed :
    ∀ result, (subscribeReply layer allocs task state msg).task = some result → result.Timed := by
  unfold subscribeReply subscribeSuback subscribeError Outcome.abort
  simp only
  repeat' split
  all_goals
    intro result same
    cases same
  all_goals exact timed

theorem executeQ12_timed : ∀ result, (layer.executeQ12 allocs task state msg).task = some result → result.Timed := by
  have late : ∀ state, some XiState.timeout = some state → state = .timeout ∨ state = .resend :=
    fun state same => .inl (Option.some.inj same).symm
  have again : ∀ state, some XiState.resend = some state → state = .timeout ∨ state = .resend :=
    fun state same => .inr (Option.some.inj same).symm
  have calm : ({task with timeout := none} : Task).Timed := timed_none rfl
  unfold LogicLayer.executeQ12
  split
  · unfold doMqttPublishQ1 Outcome.abort
    repeat' split
    all_goals
      intro result same
      first
      | exact publishQ1Send_timed timed _ result same
      | exact publishQ1Send_timed calm _ result same
      | exact publishQ1Reply_timed _ _ calm result same
      | cases same; exact timed
      | cases same; exact timed_none rfl
      | cases same; exact late
  · unfold doMqttSubscribe subscribeError Outcome.abort
    repeat' split
    all_goals
      intro result same
      first
      | exact subscribeSend_timed allocs timed _ result same
      | exact subscribeSend_timed allocs calm _ result same
      | exact subscribeReply_timed layer allocs _ _ calm result same
      | cases same; done
      | cases same; exact timed
      | cases same; exact timed_none rfl
      | cases same; exact late
      | cases same; exact again
  · intro result same
    cases same
    exact timed

end Timeouts

section Steps

variable {layer base after : LogicLayer} {subscribed : List Nat} {task changed : Task} {addr : Nat} {state : XiState}
  {msg : Option Message}

/-- A queued task, with the data that it speaks of. -/
structure Task.Registers (subscribed : List Nat) (task : Task) : Prop where
  block : task.block = task.addr
  timed : task.Timed
  mine : task.scenario = .subscribe → task.addr ∈ subscribed ∧ ∃ data, task.data = some (.subscribe data)

/-- What every call keeps. -/
structure Tracked (layer : LogicLayer) (subscribed : List Nat) : Prop where
  ways : ∀ addr ∈ subscribed, OnItsWay addr layer
  known : ∀ addr ∈ subscribed, addr < layer.nextAddr ∧ Elsewhere addr layer layer.currentQ0Task layer.q0TasksQueue
  own : ∀ task ∈ layer.q12TasksQueue, task.Registers subscribed
  addrs : (layer.q12TasksQueue.map Task.addr).Nodup
  bound : ∀ task ∈ layer.q12TasksQueue, task.addr < layer.nextAddr
  unused : ∀ addr, layer.nextAddr ≤ addr → layer.Unused addr

theorem Tracked.beside (tracked : Tracked layer subscribed) (same : BesideQ12 layer after) : Tracked after subscribed where
  ways := by
    intro addr member
    obtain ⟨old,away⟩ := tracked.known addr member
    refine (tracked.ways addr member).same ⟨?_,?_,(same.elsewhere addr (.inl old) away).2,⟨[],?_⟩,⟨[],?_⟩⟩
    · rw [same.q12TasksQueue]
      exact fun task own subscribe member => ⟨task,member,own,subscribe⟩
    · rw [same.q12TasksQueue]
      exact id
    · exact ⟨same.handlers.trans (List.append_nil _).symm,fun _ member => absurd member List.not_mem_nil⟩
    · exact ⟨same.calls.trans (List.append_nil _).symm,fun _ member => absurd member List.not_mem_nil⟩
  known := by
    intro addr member
    obtain ⟨old,away⟩ := tracked.known addr member
    exact ⟨old.trans_le same.nextAddr,(same.elsewhere addr (.inl old) away).1⟩
  own := by
    rw [same.q12TasksQueue]
    exact tracked.own
  addrs := by
    rw [same.q12TasksQueue]
    exact tracked.addrs
  bound := by
    rw [same.q12TasksQueue]
    exact fun task member => (tracked.bound task member).trans_le same.nextAddr
  unused := by
    intro addr free
    obtain ⟨away,effects,handlers,calls⟩ := tracked.unused addr (same.nextAddr.trans free)
    obtain ⟨still,silent⟩ := same.elsewhere addr (.inr free) away
    exact ⟨still,silent.trans effects,same.handlers ▸ handlers,same.calls ▸ calls⟩

/-- A queued task says nothing about the others. -/
theorem resume_same (block : changed.block = changed.addr) (away : addr ≠ changed.addr) :
    SameWay addr layer (layer.resumeQ12 {} changed state msg) := by
  have job := executeQ12_job layer {} changed state msg
  have silent : mentions addr (layer.executeQ12 {} changed state msg).effects = [] := by
    refine List.filter_eq_nil_iff.mpr fun effect member about => ?_
    have about : effect.about = some addr := of_decide_eq_true about
    have own := List.all_eq_true.mp job effect member
    simp [Effect.ofJob,about,block,away] at own
  refine ⟨?_,?_,?_,⟨observe Effect.registered (layer.executeQ12 {} changed state msg).effects,?_,?_⟩,
    ⟨observe Effect.called (layer.executeQ12 {} changed state msg).effects,?_,?_⟩⟩
  · intro task own subscribe member
    rw [resumeQ12_q12TasksQueue]
    exact ⟨task,mem_replaceTask_of_ne member (own ▸ away),own,subscribe⟩
  · intro gone task member
    rw [resumeQ12_q12TasksQueue] at member
    rcases mem_replaceTask member with ⟨member,_⟩ | same
    · exact gone task member
    · rw [(executeQ12_sameJob layer {} changed state msg task same).addr]
      exact away.symm
  · rw [resumeQ12_effects,mentions_append,silent,List.append_nil]
  · exact perform_registered
  · intro data member clash
    obtain ⟨effect,listed,named⟩ := List.mem_filterMap.mp member
    cases effect <;> simp only [Effect.registered,Option.some.injEq,reduceCtorEq] at named
    rw [← named] at clash
    have about : Effect.registerHandler _ ∈ mentions addr _ := List.mem_filter.mpr ⟨listed,decide_eq_true (congrArg some clash)⟩
    rw [silent] at about
    exact absurd about List.not_mem_nil
  · exact perform_called
  · intro call member clash
    obtain ⟨effect,listed,named⟩ := List.mem_filterMap.mp member
    cases effect <;> simp only [Effect.called,Option.some.injEq,reduceCtorEq] at named
    rw [← named] at clash
    have about : Effect.subscriptionCall _ _ _ ∈ mentions addr _ :=
      List.mem_filter.mpr ⟨listed,decide_eq_true (congrArg some clash)⟩
    rw [silent] at about
    exact absurd about List.not_mem_nil

theorem silent_about (addr : Nat) {effects : List Effect} (silent : effects.all (·.about = none) = true) :
    mentions addr effects = [] ∧ observe Effect.registered effects = [] ∧ observe Effect.called effects = [] := by
  have each := List.all_eq_true.mp silent
  refine ⟨List.filter_eq_nil_iff.mpr fun effect member about => ?_,List.filterMap_eq_nil_iff.mpr fun effect member => ?_,
    List.filterMap_eq_nil_iff.mpr fun effect member => ?_⟩
  · exact Option.some_ne_none addr ((of_decide_eq_true about).symm.trans (of_decide_eq_true (each effect member)))
  · have none := of_decide_eq_true (each effect member)
    cases effect <;> first | rfl | exact absurd none (Option.some_ne_none _)
  · have none := of_decide_eq_true (each effect member)
    cases effect <;> first | rfl | exact absurd none (Option.some_ne_none _)

/-- The task of a subscription is resumed with an answer. -/
theorem Unanswered.resume (waits : Unanswered task.addr layer) (addrs : (layer.q12TasksQueue.map Task.addr).Nodup)
    (member : task ∈ layer.q12TasksQueue) (job : task.SameJob changed) {data : SubscribeData}
    (subscribe : task.scenario = .subscribe) (own : task.data = some (.subscribe data)) (block : data.block = task.addr)
    (answers : Answers layer changed state msg) : OnItsWay task.addr (layer.resumeQ12 {} changed state msg) := by
  have goes : Subscribes changed.addr data (layer.executeQ12 {} changed state msg) := by
    have command : layer.executeQ12 {} changed state msg = doMqttSubscribe layer {} changed state msg := by
      unfold LogicLayer.executeQ12
      rw [job.scenario,subscribe]
    rw [command]
    exact doMqttSubscribe_subscribes (job.data.trans own) answers
  have only : ∀ other ∈ layer.q12TasksQueue, other.addr = task.addr → other = task :=
    fun other listed same => List.inj_on_of_nodup_map addrs listed member same
  have queue := @resumeQ12_q12TasksQueue layer {} changed state msg
  have effects := @resumeQ12_effects layer {} changed state msg
  have handlers : (layer.resumeQ12 {} changed state msg).handlersForTopics = layer.handlersForTopics ++
      observe Effect.registered (layer.executeQ12 {} changed state msg).effects := perform_registered
  have calls : (layer.resumeQ12 {} changed state msg).calls = layer.calls ++
      observe Effect.called (layer.executeQ12 {} changed state msg).effects := perform_called
  have gone (ended : (layer.executeQ12 {} changed state msg).task = none) :
      ∀ other ∈ (layer.resumeQ12 {} changed state msg).q12TasksQueue, other.addr ≠ task.addr := by
    intro other listed
    rw [queue,ended] at listed
    rcases mem_replaceTask listed with ⟨_,away⟩ | none
    · exact job.addr ▸ away
    · exact absurd none.symm (Option.some_ne_none other)
  have kept := executeQ12_sameJob layer {} changed state msg
  generalize layer.executeQ12 {} changed state msg = outcome at *
  cases goes with
  | @stays outcome result same silent =>
    obtain ⟨unsaid,unregistered,uncalled⟩ := silent_about task.addr silent
    rw [unregistered,List.append_nil] at handlers
    rw [uncalled,List.append_nil] at calls
    have mine := kept result same
    refine .inl ⟨⟨result,?_,mine.addr.trans job.addr,mine.scenario.trans (job.scenario.trans subscribe)⟩,?_,?_,?_⟩
    · rw [queue,same]
      exact List.mem_filterMap.mpr ⟨task,member,if_pos job.addr.symm⟩
    · rw [effects,mentions_append,waits.effects,unsaid]
      rfl
    · rw [handlers]
      exact waits.handlers
    · rw [calls]
      exact waits.calls
  | @accepted received status fault =>
    refine .inr (.inl ⟨gone rfl,⟨data,status,block,?_,?_⟩,?_⟩)
    · rw [handlers]
      exact List.mem_append_right _ (List.mem_singleton_self data)
    · rw [effects,mentions_append,waits.effects,job.addr]
      simp [mentions,Effect.about,block]
    · rw [calls]
      refine List.forall_mem_append.mpr ⟨fun call listed clash => absurd clash (waits.calls call listed),?_⟩
      intro call listed _
      rw [List.mem_singleton.mp listed]
      exact XiState.noConfusion
  | @refused received status fault =>
    have handlers := handlers.trans (List.append_nil _)
    refine .inr (.inr ⟨gone rfl,?_,⟨data,status,[],block,?_,.inl ⟨rfl,?_⟩⟩,?_⟩)
    · rw [handlers]
      exact waits.handlers
    · rw [effects,mentions_append,waits.effects,job.addr]
      simp [mentions,Effect.about,block]
    · rw [calls,List.countP_append,List.countP_eq_zero.mpr]
      · change 0 + List.countP _ [SubscriptionCall.mk data status .mqttSubscriptionFailed] = 1
        simp [block]
      · exact fun call listed clash => waits.calls call listed (of_decide_eq_true clash)
    · rw [calls]
      refine List.forall_mem_append.mpr ⟨fun call listed clash => absurd clash (waits.calls call listed),?_⟩
      intro call listed _
      rw [List.mem_singleton.mp listed]

theorem Task.Registers.job (registers : task.Registers subscribed) (job : task.SameJob changed) (timed : changed.Timed) :
    changed.Registers subscribed where
  block := by
    rw [job.addr,← registers.block]
    unfold Task.block
    rw [job.data,job.addr]
  timed := timed
  mine := by
    rw [job.scenario,job.addr,job.data]
    exact registers.mine

/-- The data of a subscription is at its task's address. -/
theorem Task.Registers.own_block (registers : task.Registers subscribed) {data : SubscribeData}
    (own : task.data = some (.subscribe data)) : data.block = task.addr := by
  have block := registers.block
  unfold Task.block at block
  rw [own] at block
  exact block

theorem Tracked.resume (tracked : Tracked layer subscribed) (member : task ∈ layer.q12TasksQueue)
    (job : task.SameJob changed) (timed : changed.Timed)
    (answers : task.scenario = .subscribe → Answers layer changed state msg) :
    Tracked (layer.resumeQ12 {} changed state msg) subscribed := by
  have registers := (tracked.own task member).job job timed
  have same : Undisturbed layer (layer.resumeQ12 {} changed state msg) := .resumeQ12 {} changed state msg
  have recv : (layer.resumeQ12 {} changed state msg).q12RecvTasksQueue = layer.q12RecvTasksQueue :=
    LogicLayer.perform_q12RecvTasksQueue
  have elsewhere (addr : Nat) (away : Elsewhere addr layer layer.currentQ0Task layer.q0TasksQueue) :
      Elsewhere addr (layer.resumeQ12 {} changed state msg) (layer.resumeQ12 {} changed state msg).currentQ0Task
        (layer.resumeQ12 {} changed state msg).q0TasksQueue := by
    rw [same.currentQ0Task,same.q0TasksQueue]
    exact ⟨away.current,away.queue,recv ▸ away.recv⟩
  have listed : ∀ other ∈ (layer.resumeQ12 {} changed state msg).q12TasksQueue,
      other ∈ layer.q12TasksQueue ∨ (changed.SameJob other ∧ other.Timed) := by
    intro other member
    rw [resumeQ12_q12TasksQueue] at member
    rcases mem_replaceTask member with ⟨member,_⟩ | result
    · exact .inl member
    · exact .inr ⟨executeQ12_sameJob _ _ _ _ _ other result,executeQ12_timed _ _ _ _ timed other result⟩
  refine ⟨?_,?_,?_,?_,?_,?_⟩
  · intro addr subscribedTo
    by_cases own : addr = task.addr
    · subst own
      -- the task is in the queue, so the subscription waits, and the task is its own
      rcases tracked.ways task.addr subscribedTo with waits | accepted | refused
      · obtain ⟨other,queued,clash,subscribe⟩ := waits.queued
        rw [List.inj_on_of_nodup_map tracked.addrs queued member clash] at subscribe
        obtain ⟨_,data,own⟩ := (tracked.own task member).mine subscribe
        exact waits.resume tracked.addrs member job subscribe own ((tracked.own task member).own_block own) (answers subscribe)
      · exact absurd rfl (accepted.gone task member)
      · exact absurd rfl (refused.gone task member)
    · exact (tracked.ways addr subscribedTo).same (resume_same registers.block (job.addr ▸ own))
  · intro addr subscribedTo
    obtain ⟨old,away⟩ := tracked.known addr subscribedTo
    exact ⟨old.trans_eq resumeQ12_nextAddr.symm,elsewhere addr away⟩
  · intro other queued
    rcases listed other queued with queued | ⟨mine,timed⟩
    · exact tracked.own other queued
    · exact registers.job mine timed
  · rw [resumeQ12_q12TasksQueue]
    refine (replaceTask_map_sublist Task.addr fun other queued clash result taken => ?_).nodup tracked.addrs
    rw [(executeQ12_sameJob _ _ _ _ _ result taken).addr,clash]
  · intro other queued
    rw [resumeQ12_nextAddr]
    rcases listed other queued with queued | ⟨mine,_⟩
    · exact tracked.bound other queued
    · rw [mine.addr,job.addr]
      exact tracked.bound task member
  · intro addr free
    rw [resumeQ12_nextAddr] at free
    obtain ⟨away,effects,handlers,calls⟩ := tracked.unused addr free
    have apart : addr ≠ changed.addr := by
      rw [job.addr]
      exact (Nat.lt_of_lt_of_le (tracked.bound task member) free).ne'
    obtain ⟨_,_,silent,⟨more,registered,others⟩,⟨more',called,others'⟩⟩ :=
      @resume_same layer changed addr state msg registers.block apart
    refine ⟨elsewhere addr away,silent.trans effects,?_,?_⟩
    · rw [registered]
      exact List.forall_mem_append.mpr ⟨handlers,others⟩
    · rw [called]
      exact List.forall_mem_append.mpr ⟨calls,others'⟩

/-- A new task is queued. -/
theorem Tracked.append (tracked : Tracked layer subscribed) (new : ∀ other ∈ layer.q12TasksQueue, other.addr ≠ task.addr)
    (strange : task.addr ∉ subscribed) (taken : task.addr < layer.nextAddr) {more : List Nat}
    (way : ∀ addr ∈ more, addr = task.addr ∧ task.scenario = .subscribe ∧ layer.Unused addr)
    (registers : task.Registers (subscribed ++ more)) (id : UInt16) :
    Tracked {layer with lastMsgId := id,q12TasksQueue := layer.q12TasksQueue ++ [task]} (subscribed ++ more) where
  ways := by
    intro addr member
    rcases List.mem_append.mp member with member | member
    · refine (tracked.ways addr member).same ⟨fun other own subscribe listed => ?_,fun gone => ?_,rfl,
        ⟨[],(List.append_nil _).symm,fun _ member => absurd member List.not_mem_nil⟩,
        ⟨[],(List.append_nil _).symm,fun _ member => absurd member List.not_mem_nil⟩⟩
      · exact ⟨other,List.mem_append_left _ listed,own,subscribe⟩
      · refine List.forall_mem_append.mpr ⟨gone,fun other listed => ?_⟩
        rw [List.mem_singleton.mp listed]
        exact fun clash => strange (clash ▸ member)
    · obtain ⟨rfl,subscribe,unused⟩ := way addr member
      exact .inl ⟨⟨task,List.mem_append_right _ (List.mem_singleton_self task),rfl,subscribe⟩,unused.effects,
        unused.handlers,unused.calls⟩
  known := by
    intro addr member
    rcases List.mem_append.mp member with member | member
    · obtain ⟨old,away⟩ := tracked.known addr member
      exact ⟨old,away.current,away.queue,away.recv⟩
    · obtain ⟨rfl,_,unused⟩ := way addr member
      exact ⟨taken,unused.elsewhere.current,unused.elsewhere.queue,unused.elsewhere.recv⟩
  own := by
    refine List.forall_mem_append.mpr ⟨fun other member => ?_,fun other member => ?_⟩
    · have kept := tracked.own other member
      exact ⟨kept.block,kept.timed,fun subscribe => (kept.mine subscribe).imp_left (List.mem_append_left more)⟩
    · rw [List.mem_singleton.mp member]
      exact registers
  addrs := by
    change ((layer.q12TasksQueue ++ [task]).map Task.addr).Nodup
    rw [List.map_append,List.map_singleton]
    refine List.nodup_append.mpr ⟨tracked.addrs,List.nodup_singleton _,?_⟩
    intro addr listed other same clash
    obtain ⟨queued,member,rfl⟩ := List.mem_map.mp listed
    exact new queued member (clash.trans (List.mem_singleton.mp same))
  bound := by
    refine List.forall_mem_append.mpr ⟨tracked.bound,fun other member => ?_⟩
    rw [List.mem_singleton.mp member]
    exact taken
  unused := by
    intro addr free
    obtain ⟨away,effects,handlers,calls⟩ := tracked.unused addr free
    exact ⟨⟨away.current,away.queue,away.recv⟩,effects,handlers,calls⟩

/-- The first of the pending calls is made. -/
theorem run_call {call : SubscriptionCall} {calls : List SubscriptionCall} (first : layer.calls = call :: calls) :
    layer.runSubscriptionCall = {layer with
      calls := calls
      effects := layer.effects ++ if call.state = .mqttSubscriptionFailed then [.freeData call.data.block] else []} := by
  unfold LogicLayer.runSubscriptionCall
  rw [first]
  simp only
  split
  · rfl
  · rw [List.append_nil]

theorem OnItsWay.call (way : OnItsWay addr layer) {call : SubscriptionCall} {calls : List SubscriptionCall}
    (first : layer.calls = call :: calls) : OnItsWay addr layer.runSubscriptionCall := by
  rw [run_call first]
  by_cases mine : call.data.block = addr
  · rcases way with waits | accepted | ⟨gone,handlers,⟨data,status,freed,block,effects,pending⟩,own⟩
    · exact absurd mine (waits.calls call (first ▸ List.mem_cons_self ..))
    · obtain ⟨data,status,block,registered,effects⟩ := accepted.effects
      have granted := accepted.calls call (first ▸ List.mem_cons_self ..) mine
      rw [if_neg granted,List.append_nil]
      exact .inr (.inl ⟨accepted.gone,⟨data,status,block,registered,effects⟩,
        fun other listed => accepted.calls other (first ▸ List.mem_cons_of_mem call listed)⟩)
    · have failed := own call (first ▸ List.mem_cons_self ..) mine
      rw [if_pos failed]
      rcases pending with ⟨rfl,one⟩ | ⟨_,none⟩
      · rw [first,List.countP_cons_of_pos (by simpa using mine)] at one
        have left := List.countP_eq_zero.mp (Nat.succ.inj one)
        refine .inr (.inr ⟨gone,handlers,⟨data,status,[.freeData addr],block,?_,.inr ⟨rfl,?_⟩⟩,?_⟩)
        · rw [mentions_append,effects,mine]
          simp [mentions,Effect.about]
        · exact fun other listed clash => left other listed (decide_eq_true clash)
        · exact fun other listed => own other (first ▸ List.mem_cons_of_mem call listed)
      · exact absurd mine (none call (first ▸ List.mem_cons_self ..))
  · have silent : mentions addr (layer.effects ++ if call.state = .mqttSubscriptionFailed then
        [.freeData call.data.block] else []) = mentions addr layer.effects := by
      rw [mentions_append]
      split <;> simp [mentions,Effect.about,mine]
    have rest : ∀ other ∈ calls, other ∈ layer.calls := fun other listed => first ▸ List.mem_cons_of_mem call listed
    rcases way with waits | accepted | ⟨gone,handlers,⟨data,status,freed,block,effects,pending⟩,own⟩
    · exact .inl ⟨waits.queued,silent.trans waits.effects,waits.handlers,fun other listed => waits.calls other (rest other listed)⟩
    · obtain ⟨data,status,block,registered,effects⟩ := accepted.effects
      exact .inr (.inl ⟨accepted.gone,⟨data,status,block,registered,silent.trans effects⟩,
        fun other listed => accepted.calls other (rest other listed)⟩)
    · refine .inr (.inr ⟨gone,handlers,⟨data,status,freed,block,silent.trans effects,pending.imp ?_ ?_⟩,
        fun other listed => own other (rest other listed)⟩)
      · rintro ⟨unfreed,one⟩
        rw [first,List.countP_cons_of_neg (by simpa using mine)] at one
        exact ⟨unfreed,one⟩
      · exact And.imp_right fun none other listed => none other (rest other listed)

theorem Tracked.call (tracked : Tracked layer subscribed) : Tracked layer.runSubscriptionCall subscribed := by
  cases first : layer.calls with
  | nil =>
    unfold LogicLayer.runSubscriptionCall
    rw [first]
    exact tracked
  | cons call calls =>
    have ways := fun addr member => (tracked.ways addr member).call first
    rw [run_call first] at ways ⊢
    refine ⟨ways,fun addr member => ?_,tracked.own,tracked.addrs,tracked.bound,fun addr free => ?_⟩
    · obtain ⟨old,away⟩ := tracked.known addr member
      exact ⟨old,away.current,away.queue,away.recv⟩
    · obtain ⟨away,effects,handlers,others⟩ := tracked.unused addr free
      have other : call.data.block ≠ addr := others call (first ▸ List.mem_cons_self ..)
      refine ⟨⟨away.current,away.queue,away.recv⟩,?_,handlers,fun call listed =>
        others call (first ▸ List.mem_cons_of_mem _ listed)⟩
      rw [mentions_append,effects]
      split <;> simp [mentions,Effect.about,other]

theorem make_registers (addr : Nat) (request : Request) (subscribed : List Nat) (id : UInt16)
    (known : ∀ topic qos handler session, request = .subscribe topic qos handler session → addr ∈ subscribed) :
    ({request.queued addr with msgId := id} : Task).Registers subscribed := by
  cases request with
  | publish topic data qos retain callback =>
    cases qos <;> exact ⟨rfl,timed_none rfl,fun other => absurd other Scenario.noConfusion⟩
  | subscribe topic qos handler session => exact ⟨rfl,timed_none rfl,fun _ => ⟨known topic qos handler session rfl,_,rfl⟩⟩
  | shutdown => exact ⟨rfl,timed_none rfl,fun other => absurd other Scenario.noConfusion⟩

theorem make_start (addr : Nat) (request : Request) : (request.queued addr).addr = addr ∧ (request.queued addr).cs = .start := by
  cases request with
  | publish topic data qos retain callback => cases qos <;> exact ⟨rfl,rfl⟩
  | subscribe topic qos handler session => exact ⟨rfl,rfl⟩
  | shutdown => exact ⟨rfl,rfl⟩

theorem Tracked.queueQ12Task (tracked : Tracked layer subscribed) (request : Request)
    (new : ∀ other ∈ layer.q12TasksQueue, other.addr ≠ addr) (strange : addr ∉ subscribed) (taken : addr < layer.nextAddr)
    {more : List Nat} (way : ∀ other ∈ more, other = addr ∧ (request.queued addr).scenario = .subscribe ∧ layer.Unused other)
    (known : ∀ topic qos handler session, request = .subscribe topic qos handler session → addr ∈ more) :
    Tracked (layer.queueQ12Task {} (request.queued addr)) (subscribed ++ more) := by
  obtain ⟨own,start⟩ := make_start addr request
  let task : Task := {request.queued addr with msgId := layer.lastMsgId + 1}
  have named : task.addr = addr := own
  have registers : task.Registers (subscribed ++ more) := make_registers addr request _ _ fun topic qos handler session same =>
    List.mem_append_right _ (known topic qos handler session same)
  have queued : Tracked {layer with lastMsgId := layer.lastMsgId + 1,q12TasksQueue := layer.q12TasksQueue ++ [task]}
      (subscribed ++ more) :=
    tracked.append (named ▸ new) (named ▸ strange) (named ▸ taken) (named ▸ way) registers (layer.lastMsgId + 1)
  unfold LogicLayer.queueQ12Task
  simp only
  split
  · refine queued.resume (List.mem_append_right _ (List.mem_singleton_self task)) (.refl task) registers.timed ?_
    intro _ reply
    exact absurd (start.symm.trans reply) Cs.noConfusion
  · exact queued

theorem Tracked.erase (tracked : Tracked layer subscribed) (entry : UInt16 × MqttType) :
    Tracked {layer with sending := layer.sending.erase entry} subscribed where
  ways := fun addr member => (tracked.ways addr member).same
    ⟨fun task own subscribe listed => ⟨task,listed,own,subscribe⟩,id,rfl,
      ⟨[],(List.append_nil _).symm,fun _ member => absurd member List.not_mem_nil⟩,
      ⟨[],(List.append_nil _).symm,fun _ member => absurd member List.not_mem_nil⟩⟩
  known := fun addr member => (tracked.known addr member).imp_right fun away => ⟨away.current,away.queue,away.recv⟩
  own := tracked.own
  addrs := tracked.addrs
  bound := tracked.bound
  unused := fun addr free =>
    have ⟨away,effects,handlers,calls⟩ := tracked.unused addr free
    ⟨⟨away.current,away.queue,away.recv⟩,effects,handlers,calls⟩

theorem tracked_subscribe (tracked : Tracked layer subscribed) (running : layer.fault = false) (topic : List UInt8)
    (qos : UInt8) (handler : Nat) (session : SessionState) :
    Tracked (Logic.step {} layer (.push (.subscribe topic qos handler session)))
      (subscribed ++ Subscribing.queued layer (.push (.subscribe topic qos handler session))) := by
  let request := Request.subscribe topic qos handler session
  have pushed : Logic.step {} layer (.push request) =
      LogicLayer.push {layer with nextAddr := layer.nextAddr + 1} {} (request.make layer.nextAddr) .ok := by
    unfold Logic.step
    rw [if_neg (by rw [running]; exact Bool.false_ne_true)]
    rfl
  rw [pushed]
  unfold LogicLayer.push Subscribing.queued
  by_cases closed : (layer.notOperational || !layer.hasData) = true
  · rw [if_pos closed]
    refine (if_pos closed).symm ▸ ?_
    rw [List.append_nil]
    exact tracked.beside (beside_refused (ofTask_free (request.make layer.nextAddr)))
  · rw [if_neg closed]
    refine (if_neg closed).symm ▸ ?_
    rw [if_neg (by decide)]
    have unused := tracked.unused layer.nextAddr le_rfl
    have base : Tracked {layer with nextAddr := layer.nextAddr + 1} subscribed := tracked.beside beside_next
    refine base.queueQ12Task request (fun other member => (tracked.bound other member).ne)
      (fun member => (tracked.known _ member).1.ne rfl) (Nat.lt_succ_self _) ?_ fun _ _ _ _ _ => List.mem_singleton_self _
    intro other member
    rw [List.mem_singleton.mp member]
    exact ⟨rfl,rfl,⟨unused.elsewhere.current,unused.elsewhere.queue,unused.elsewhere.recv⟩,unused.effects,unused.handlers,
      unused.calls⟩

theorem tracked_other (tracked : Tracked layer subscribed) {event : Event} (stays : event.staysOpen)
    (answers : event.answersSubscribe layer)
    (other : ∀ topic qos handler session, event ≠ .push (.subscribe topic qos handler session))
    (step : StepQ12 {} layer event after) : Tracked after subscribed := by
  cases step with
  | beside same => exact tracked.beside same
  | @push request base q12 works same next _ _ =>
    have new : ∀ other ∈ base.q12TasksQueue, other.addr ≠ layer.nextAddr := by
      rw [same.q12TasksQueue]
      exact fun other member => (tracked.bound other member).ne
    have queued : Tracked (base.queueQ12Task {} (request.queued layer.nextAddr)) (subscribed ++ []) :=
      (tracked.beside same).queueQ12Task request new (fun member => (tracked.known _ member).1.ne rfl) next
        (fun _ member => absurd member List.not_mem_nil)
        fun topic qos handler session same => absurd (congrArg Event.push same) (other topic qos handler session)
    rwa [List.append_nil] at queued
  | @confirm msgId type written task works positive toServer found =>
    have member := List.mem_of_find?_eq_some found
    refine (tracked.erase (msgId,type)).resume member (.refl task) (tracked.own task member).timed ?_
    exact fun subscribe reply => absurd reply (answers toServer task found subscribe)
  | unheard _ _ _ => exact tracked.erase _
  | @pull msg task works plain positive toServer found =>
    have member := List.mem_of_find?_eq_some found
    refine tracked.resume member ⟨rfl,rfl,rfl,rfl,rfl,rfl,rfl,.inl rfl⟩ (tracked.own task member).timed ?_
    intro subscribe reply
    obtain ⟨suback,room⟩ := answers toServer task found subscribe reply
    refine .inr (.inr ⟨rfl,fun received same => ?_⟩)
    cases same
    exact ⟨suback,room⟩
  | @timeout addr task state found pending =>
    have member := List.mem_of_find?_eq_some found
    refine tracked.resume member ⟨rfl,rfl,rfl,rfl,rfl,rfl,rfl,.inl rfl⟩ (timed_none rfl) ?_
    exact fun _ _ => ((tracked.own task member).timed state pending).imp_right .inl
  | postConnect _ => exact stays.elim
  | init _ => exact stays.elim
  | closeExternally _ _ => exact stays.elim
  | subscriptionCall => exact tracked.call

theorem tracked_step (tracked : Tracked layer subscribed) (running : layer.fault = false) {event : Event}
    (stays : event.staysOpen) (answers : event.answersSubscribe layer) :
    Tracked (Logic.step {} layer event) (subscribed ++ Subscribing.queued layer event) := by
  by_cases subscribes : ∃ topic qos handler session, event = .push (.subscribe topic qos handler session)
  · obtain ⟨topic,qos,handler,session,rfl⟩ := subscribes
    exact tracked_subscribe tracked running topic qos handler session
  · have other : ∀ topic qos handler session, event ≠ .push (.subscribe topic qos handler session) :=
      fun topic qos handler session same => subscribes ⟨topic,qos,handler,session,same⟩
    have none : Subscribing.queued layer event = [] := by
      unfold Subscribing.queued
      split
      · exact (other _ _ _ _ rfl).elim
      · rfl
    rw [none,List.append_nil]
    exact tracked_other tracked stays answers other (step_cases12 {} running event)

end Steps

section Runs

variable {layer : LogicLayer} {addr : Nat}

theorem observe_mentions {α : Type*} {f : Effect → Option α} (own : ∀ effect, effect.about ≠ some addr → f effect = none)
    (effects : List Effect) : observe f effects = observe f (mentions addr effects) := by
  induction effects with
  | nil => rfl
  | cons effect effects ih =>
    unfold mentions at ih ⊢
    by_cases about : effect.about = some addr
    · rw [List.filter_cons_of_pos (by simpa using about),observe_cons,observe_cons,ih]
    · rw [List.filter_cons_of_neg (by simpa using about),observe_cons,own effect about,ih]
      rfl

theorem tells_own (addr : Nat) : ∀ effect : Effect, effect.about ≠ some addr → effect.tells addr = none := by
  intro effect away
  cases effect with
  | subscriptionCall data status state => exact if_neg fun own => away (congrArg some own)
  | _ => rfl

theorem OnItsWay.followedThrough (way : OnItsWay addr layer) : layer.FollowedThrough addr := by
  have tells := observe_mentions (tells_own addr) layer.effects
  have count : layer.effects.count (.freeData addr) = (mentions addr layer.effects).count (.freeData addr) := by
    unfold mentions
    rw [List.count_filter]
    exact decide_eq_true rfl
  have member : Effect.freeData addr ∈ layer.effects → Effect.freeData addr ∈ mentions addr layer.effects :=
    fun member => List.mem_filter.mpr ⟨member,decide_eq_true rfl⟩
  rcases way with ⟨⟨task,queued,own,_⟩,effects,_,_⟩ | ⟨gone,⟨data,status,block,registered,effects⟩,_⟩ |
    ⟨gone,handlers,⟨data,status,freed,block,effects,pending⟩,_⟩
  · rw [effects] at tells count member
    refine ⟨?_,fun gone => absurd own (gone task queued),?_,fun freed => absurd (member freed) List.not_mem_nil⟩
    · rw [tells]
      exact Nat.zero_le 1
    · rw [count]
      exact Nat.zero_le 1
  · have said : observe (Effect.tells addr) layer.effects = [.mqttSubscriptionSuccessfull] := by
      rw [tells,effects]
      simp [Effect.tells,block]
    refine ⟨?_,fun _ => ⟨_,said,.inl rfl,fun _ => rfl,fun _ => ⟨data,registered,block⟩⟩,?_,fun freed => ?_⟩
    · rw [said]
      exact le_rfl
    · rw [count,effects]
      simp
    · have := member freed
      rw [effects] at this
      simp at this
  · have said : observe (Effect.tells addr) layer.effects = [.mqttSubscriptionFailed] := by
      rw [tells,effects]
      rcases pending with ⟨rfl,_⟩ | ⟨rfl,_⟩ <;> simp [Effect.tells,block]
    have unregistered : ¬ ∃ data ∈ layer.handlersForTopics, data.block = addr :=
      fun ⟨data,listed,own⟩ => handlers data listed own
    refine ⟨?_,fun _ => ⟨_,said,.inr rfl,fun known => absurd known unregistered,fun same => absurd same XiState.noConfusion⟩,
      ?_,fun free => ⟨handlers,?_⟩⟩
    · rw [said]
      exact le_rfl
    · rw [count,effects]
      rcases pending with ⟨rfl,_⟩ | ⟨rfl,_⟩ <;> simp
    · have listed := member free
      rw [effects] at listed
      rcases pending with ⟨rfl,_⟩ | ⟨_,none⟩
      · simp at listed
      · exact none

theorem tracked_start (unsubscribed : layer.Unsubscribed) : Tracked layer [] where
  ways := fun _ member => absurd member List.not_mem_nil
  known := fun _ member => absurd member List.not_mem_nil
  own := by
    rw [unsubscribed.empty]
    exact fun _ member => absurd member List.not_mem_nil
  addrs := by
    rw [unsubscribed.empty]
    exact List.nodup_nil
  bound := by
    rw [unsubscribed.empty]
    exact fun _ member => absurd member List.not_mem_nil
  unused := unsubscribed.unused

theorem openLayer_unsubscribed : openLayer.Unsubscribed where
  empty := by decide +kernel
  unused := by
    intro addr free
    have idle : openLayer.currentQ0Task = none := by decide +kernel
    have queue : openLayer.q0TasksQueue = [] := by decide +kernel
    have recv : openLayer.q12RecvTasksQueue = [] := by decide +kernel
    have handlers : openLayer.handlersForTopics = [] := by decide +kernel
    have calls : openLayer.calls = [] := by decide +kernel
    have known : openLayer.effects.all (fun effect => effect.about.all (· < openLayer.nextAddr)) = true := by decide +kernel
    refine ⟨⟨?_,?_,?_⟩,List.filter_eq_nil_iff.mpr fun effect member about => ?_,?_,?_⟩
    · rw [idle]
      exact fun task none => absurd none.symm (Option.some_ne_none task)
    · rw [queue]
      exact fun _ member => absurd member List.not_mem_nil
    · rw [recv]
      exact fun _ member => absurd member List.not_mem_nil
    · have below := List.all_eq_true.mp known effect member
      rw [of_decide_eq_true about] at below
      exact absurd (of_decide_eq_true below) (Nat.not_lt.mpr free)
    · rw [handlers]
      exact fun _ member => absurd member List.not_mem_nil
    · rw [calls]
      exact fun _ member => absurd member List.not_mem_nil

def subscribeTopic : Request := .subscribe [116] 1 0 .unset

/-- The reply to the first subscription. -/
def granted : Message := {
  common := {commonValue := Common.ofBits 0 0 0 .suback}
  suback := ⟨1,some {payload := 1}⟩}

def strayPuback : Message := {common := {commonValue := Common.ofBits 0 0 0 .puback},puback := ⟨1⟩}

end Runs

end XivelyClient.Mqtt.Logic
