import XivelyClient.Mqtt.Logic.MessageIds

/-! What will resume the queued tasks of an open connection. -/
namespace XivelyClient.Mqtt.Logic

/-- The type of the message that the task sends. -/
def Task.requestType (task : Task) : MqttType := if task.scenario = .publish then .publish else .subscribe

/-- The task has been started, and something will resume it: the confirmation of what the codec layer has got,
a time event, or the answer to what was written. With a keepalive an answer is waited for under a time event. -/
def Task.Pending (layer : LogicLayer) (task : Task) : Prop :=
  match task.cs with
  | .start => False
  | .sent => (task.msgId,task.requestType) ∈ layer.sending
  | .reply => 0 < layer.connection.keepaliveTimeout → task.timeout.isSome = true
  | .retry => task.timeout.isSome = true

/-- The last connection that was begun has got its post_connect. -/
def LogicLayer.postConnected (layer : LogicLayer) : Prop :=
  (observe Effect.phase layer.effects).getLast? = some true

def LogicLayer.NoneStuck (layer : LogicLayer) : Prop :=
  layer.fault = false → layer.connection.connectionState = .opened → layer.postConnected →
    ∀ task ∈ layer.q12TasksQueue, task.Pending layer

/-- There is a coroutine for the task. -/
def Task.served (task : Task) : Bool :=
  (task.scenario = .publish && task.qos = .atLeastOnce) || task.scenario = .subscribe

/-- Each connection is begun without the data of another. -/
def Event.beginsAnew (layer : LogicLayer) : Event → Prop
  | .init _ => layer.hasData = false
  | _ => True

/-- A task is queued only when the connection is open, under a free id and not at QoS 2, and the layer still works when
something comes for a task that then starts anew. -/
def startsTasks (layer : LogicLayer) : Event → Prop
  | .push request => request.atMostOnce = false → layer.working →
    layer.connection.connectionState = .opened ∧ (request.queued layer.nextAddr).served = true ∧
      layer.lastMsgId + 1 ≠ 0 ∧ ∀ task ∈ layer.q12TasksQueue, task.msgId ≠ layer.lastMsgId + 1
  | .confirm msgId type _ => layer.working ∨ classMsgTypeSending type ≠ .toServer ∨
    ∀ task ∈ layer.q12TasksQueue, task.msgId = msgId → task.cs ≠ .sent
  | .taskTimeout addr => layer.working ∨ ∀ task ∈ layer.q12TasksQueue, task.addr = addr → task.scenario ≠ .publish
  | .postConnect => layer.working ∨
    ∀ task ∈ layer.q12TasksQueue, task.sessionState = .store → task.scenario ≠ .publish
  | _ => True

instance (layer : LogicLayer) (event : Event) : Decidable (event.beginsAnew layer) :=
  match event with
  | .init _ => inferInstanceAs (Decidable (layer.hasData = false))
  | .push _ | .confirm _ _ _ | .pull _ | .pullFailed _ | .taskTimeout _ | .orphanTimeout _ | .keepaliveOnce | .connect _
  | .postConnect | .close _ | .closeExternally _ | .setConnectionState _ | .subscriptionCall => isTrue trivial

instance (layer : LogicLayer) (event : Event) : Decidable (startsTasks layer event) :=
  match event with
  | .push request => inferInstanceAs (Decidable (request.atMostOnce = false → layer.working →
      layer.connection.connectionState = .opened ∧ (request.queued layer.nextAddr).served = true ∧
        layer.lastMsgId + 1 ≠ 0 ∧ ∀ task ∈ layer.q12TasksQueue, task.msgId ≠ layer.lastMsgId + 1))
  | .confirm msgId type _ => inferInstanceAs (Decidable (layer.working ∨ classMsgTypeSending type ≠ .toServer ∨
      ∀ task ∈ layer.q12TasksQueue, task.msgId = msgId → task.cs ≠ .sent))
  | .taskTimeout addr =>
    inferInstanceAs (Decidable (layer.working ∨ ∀ task ∈ layer.q12TasksQueue, task.addr = addr → task.scenario ≠ .publish))
  | .postConnect => inferInstanceAs (Decidable (layer.working ∨
      ∀ task ∈ layer.q12TasksQueue, task.sessionState = .store → task.scenario ≠ .publish))
  | .pull _ | .pullFailed _ | .orphanTimeout _ | .keepaliveOnce | .init _ | .connect _ | .close _ | .closeExternally _
  | .setConnectionState _ | .subscriptionCall => isTrue trivial

section Coroutines

variable {layer : LogicLayer} {allocs : Allocations} {task : Task} {state : XiState} {msg : Option Message}

/-- A coroutine leaves its task with something that will resume it. -/
def Outcome.Awaits (layer : LogicLayer) (outcome : Outcome) : Prop :=
  outcome.fault = false → ∀ result, outcome.task = some result →
    match result.cs with
    | .start => False
    | .sent => ∃ message, .send message ∈ outcome.effects ∧
      (getMessageId message,message.common.type) = (result.msgId,result.requestType)
    | .reply => 0 < layer.connection.keepaliveTimeout → result.timeout.isSome = true
    | .retry => result.timeout.isSome = true

theorem awaits_gone {effects : List Effect} {fault : Bool} : Outcome.Awaits layer {task := none,effects := effects,fault := fault} :=
  fun _ _ none => absurd none.symm (Option.some_ne_none _)

theorem awaits_abort (task : Task) : (Outcome.abort task).Awaits layer :=
  fun faultless => absurd faultless (Bool.noConfusion : ¬ true = false)

theorem publish_tag {topic : Option (List UInt8)} {content : DataDesc} {qos retain dup : Nat} {id : UInt16}
    {message : Message} (filled : fillWithPublishData topic content qos retain dup id = .ok message) :
    (getMessageId message,message.common.type) = (id,.publish) := by
  unfold fillWithPublishData at filled
  split at filled
  · cases filled
  split at filled
  · cases filled
  · cases filled
    simp [getMessageId]

theorem subscribe_tag {topic : Option (List UInt8)} {msgId : UInt16} {qos : UInt8} {dup : Nat} {message : Message}
    (filled : fillWithSubscribeData topic msgId qos dup = .ok message) :
    (getMessageId message,message.common.type) = (msgId,.subscribe) := by
  unfold fillWithSubscribeData at filled
  split at filled
  · cases filled
  · cases filled
    simp [getMessageId]

theorem publishQ1Send_awaits (publish : task.scenario = .publish) (dup : Nat) : (publishQ1Send task dup).Awaits layer := by
  unfold publishQ1Send
  split
  · split
    · exact awaits_gone
    · rename_i message filled
      rintro _ _ ⟨⟩
      refine ⟨message,List.mem_singleton_self _,?_⟩
      rw [publish_tag filled,Task.requestType,if_pos publish]
  · exact awaits_abort task

theorem subscribeSend_awaits (subscribe : task.scenario = .subscribe) (dup : Nat) :
    (subscribeSend allocs task dup).Awaits layer := by
  unfold subscribeSend
  split
  · exact awaits_gone
  split
  · split
    · exact awaits_gone
    · rename_i message filled
      rintro _ _ ⟨⟩
      refine ⟨message,List.mem_singleton_self _,?_⟩
      rw [subscribe_tag filled,Task.requestType,if_neg (by rw [subscribe]; exact Scenario.noConfusion)]
  · exact awaits_abort task

theorem publishQ1Reply_awaits : (publishQ1Reply task state msg).Awaits layer := by
  unfold publishQ1Reply
  split
  · exact awaits_gone
  split
  · exact awaits_abort task
  split
  · exact awaits_gone
  · exact awaits_gone

theorem subscribeReply_awaits : (subscribeReply layer allocs task state msg).Awaits layer := by
  have gone (data : SubscribeData) (status : UInt8) : (subscribeSuback layer allocs task data status).task = none := by
    unfold subscribeSuback subscribeError
    repeat' split
    all_goals rfl
  unfold subscribeReply
  split
  · exact awaits_gone
  split
  · exact awaits_abort task
  split
  · exact awaits_gone
  split
  · intro _ result same
    exact absurd ((gone _ _).symm.trans same).symm (Option.some_ne_none result)
  · exact awaits_abort task

/-- Whatever resumes a queued task, a working layer leaves it with something that will resume it again. -/
theorem executeQ12_awaits (served : task.served = true)
    (works : layer.working ∨ (task.scenario = .subscribe ∧ layer.hasData = true)) :
    (layer.executeQ12 allocs task state msg).Awaits layer := by
  unfold LogicLayer.executeQ12
  split
  · rename_i publish qos
    have works : layer.working := works.resolve_right fun other => absurd (publish.symm.trans other.1) Scenario.noConfusion
    unfold doMqttPublishQ1
    split
    · exact awaits_abort task
    rw [working_iff.mp works]
    simp only [Bool.false_eq_true,if_false]
    split
    iterate 2
      split
      · exact awaits_abort task
      · exact publishQ1Send_awaits publish _
    · split
      · split
        · exact awaits_abort task
        · rintro _ _ ⟨⟩ timeout
          simp only [if_pos timeout,Option.isSome_some]
      · exact publishQ1Send_awaits publish _
    · split
      · split
        · exact awaits_abort task
        · exact publishQ1Send_awaits publish _
      split
      · refine publishQ1Send_awaits ?_ _
        exact publish
      · exact publishQ1Reply_awaits
  · rename_i subscribe
    have data : layer.hasData = true := works.elim And.right And.right
    unfold doMqttSubscribe
    split
    · exact awaits_abort task
    rw [data]
    simp only [Bool.not_true,Bool.false_eq_true,if_false]
    split
    · exact subscribeSend_awaits subscribe _
    · split
      · exact awaits_abort task
      split
      · split
        · split
          · rintro _ _ ⟨⟩ _
            rfl
          · exact awaits_gone
        · rename_i timeout
          rintro _ _ ⟨⟩ positive
          exact absurd positive timeout
      split
      · rintro _ _ ⟨⟩
        rfl
      · exact awaits_gone
    · split
      · exact awaits_abort task
      · exact subscribeSend_awaits subscribe _
    · split
      · split
        · exact awaits_abort task
        · exact subscribeSend_awaits subscribe _
      split
      · refine subscribeSend_awaits ?_ _
        exact subscribe
      · exact subscribeReply_awaits
  · rename_i subscribe publish
    simp only [Task.served,Bool.or_eq_true,Bool.and_eq_true,decide_eq_true_eq] at served
    rcases served with ⟨own,qos⟩ | own
    · exact absurd qos (publish own)
    · exact absurd own subscribe

end Coroutines

section Invariant

variable {layer after : LogicLayer} {allocs : Allocations} {task : Task} {event : Event} {state : XiState}
  {msg : Option Message}

/-- What every call keeps as long as no assertion fails; in between one task may be about to be resumed. -/
structure Attended (layer : LogicLayer) (next : Option Nat) : Prop where
  registered : Registered layer
  served : ∀ task ∈ layer.q12TasksQueue, task.served = true
  pending : ∀ task ∈ layer.q12TasksQueue, next ≠ some task.addr →
    task.Pending layer ∨ (¬ layer.postConnected ∧ task.sessionState = .store)
  copies : ∀ task ∈ layer.copyOfQ12UnackedMessagesQueue, task.served = true ∧ task.sessionState = .store
  empty : layer.hasData = false → layer.q12TasksQueue = []

theorem Task.Pending.mono (pending : task.Pending layer)
    (sending : task.cs = .sent → ∀ entry ∈ layer.sending, entry.1 = task.msgId →
      classMsgTypeSending entry.2 = .toServer → entry ∈ after.sending)
    (request : after.connection.toConnectionRequest = layer.connection.toConnectionRequest) : task.Pending after := by
  unfold Task.Pending at pending ⊢
  have same : after.connection.keepaliveTimeout = layer.connection.keepaliveTimeout :=
    congrArg ConnectionRequest.keepaliveTimeout request
  rw [same]
  split at pending
  · exact pending
  · rename_i sent
    refine sending sent _ pending rfl ?_
    unfold Task.requestType
    split <;> rfl
  · exact pending
  · exact pending

theorem postConnected_append {more : List Effect} (same : after.effects = layer.effects ++ more)
    (none : observe Effect.phase more = []) : after.postConnected ↔ layer.postConnected := by
  unfold LogicLayer.postConnected
  rw [same,observe_append,none,List.append_nil]

theorem phase_unreserved {more : List Effect} (plain : more.all (!·.reserved) = true) : observe Effect.phase more = [] := by
  refine List.filterMap_eq_nil_iff.mpr fun effect member => ?_
  have plain := List.all_eq_true.mp plain effect member
  cases effect <;> first | rfl | exact absurd plain Bool.false_ne_true

theorem Attended.beside (attended : Attended layer none) (same : BesideQ12 layer after) : Attended after none where
  registered := attended.registered.beside same
  served := by
    rw [same.q12TasksQueue]
    exact attended.served
  pending := by
    obtain ⟨more,appended,plain⟩ := same.effects
    rw [same.q12TasksQueue]
    intro task member other
    have nonzero := attended.registered.queue.nonzero task member
    refine (attended.pending task member other).imp (fun pending => ?_) (And.imp_left fun early => ?_)
    · exact pending.mono (fun _ entry listed own toServer =>
        same.sending entry listed (own ▸ nonzero) toServer) same.request
    · rwa [postConnected_append appended (phase_unreserved plain)]
  copies := by
    rw [same.copies]
    exact attended.copies
  empty := by
    rw [same.hasData,same.q12TasksQueue]
    exact attended.empty

theorem mem_sending_of_send {effects : List Effect} {message : Message} (sent : .send message ∈ effects) :
    (getMessageId message,message.common.type) ∈ (layer.perform effects).sending := by
  obtain ⟨first,rest,rfl⟩ := List.append_of_mem sent
  rw [LogicLayer.perform_append,LogicLayer.perform_cons]
  obtain ⟨more,same⟩ := @LogicLayer.perform_sending
    {(layer.perform first).apply (.send message) with effects := (layer.perform first).effects ++ [.send message]} rest
  rw [same]
  exact List.mem_append_left more (List.mem_append_right _ (List.mem_singleton_self _))

/-- The task that is resumed. -/
theorem pending_resumed {changed result : Task} (served : changed.served = true)
    (works : layer.working ∨ (changed.scenario = .subscribe ∧ layer.hasData = true))
    (faultless : (layer.resumeQ12 allocs changed state msg).fault = false)
    (taken : (layer.executeQ12 allocs changed state msg).task = some result) :
    result.Pending (layer.resumeQ12 allocs changed state msg) := by
  have sound : (layer.executeQ12 allocs changed state msg).fault = false := by
    rw [resumeQ12_fault] at faultless
    exact (Bool.or_eq_false_iff.mp faultless).2
  have awaits : (layer.executeQ12 allocs changed state msg).Awaits layer := executeQ12_awaits served works
  replace awaits := awaits sound result taken
  have request : (layer.resumeQ12 allocs changed state msg).connection.toConnectionRequest =
      layer.connection.toConnectionRequest := LogicLayer.perform_request
  unfold Task.Pending
  rw [congrArg ConnectionRequest.keepaliveTimeout request]
  cases cs : result.cs with
  | sent =>
    rw [cs] at awaits
    obtain ⟨message,sends,tag⟩ := awaits
    simp only
    rw [← tag]
    exact mem_sending_of_send sends
  | start | reply | retry =>
    rw [cs] at awaits
    exact awaits

/-- The other tasks. The confirmation that resumes a task is no longer waited for. -/
theorem pending_beside_resumed (msgId : UInt16) {sent : List (UInt16 × MqttType)} {changed other : Task}
    (pending : other.Pending layer) (keeps : ∀ entry ∈ layer.sending, entry.1 ≠ msgId → entry ∈ sent)
    (away : other.msgId ≠ msgId) :
    other.Pending ({layer with sending := sent}.resumeQ12 allocs changed state msg) := by
  refine pending.mono (fun _ entry kept same _ => ?_) LogicLayer.perform_request
  obtain ⟨more,appended⟩ := @resumeQ12_sending {layer with sending := sent} allocs changed state msg
  rw [appended]
  exact List.mem_append_left more (keeps entry kept (same ▸ away))

theorem Attended.resumeQ12 (attended : Attended layer (some task.addr)) (sent : List (UInt16 × MqttType)) {changed : Task}
    (member : task ∈ layer.q12TasksQueue) (own : changed.addr = task.addr) (id : changed.msgId = task.msgId)
    (served : changed.served = true)
    (works : layer.working ∨ (changed.scenario = .subscribe ∧ layer.hasData = true))
    (keeps : ∀ entry ∈ layer.sending, entry.1 ≠ task.msgId → entry ∈ sent)
    (faultless : ({layer with sending := sent}.resumeQ12 allocs changed state msg).fault = false) :
    Attended ({layer with sending := sent}.resumeQ12 allocs changed state msg) none := by
  let base : LogicLayer := {layer with sending := sent}
  have job := executeQ12_sameJob base allocs changed state msg
  have early : (base.resumeQ12 allocs changed state msg).postConnected ↔ layer.postConnected :=
    postConnected_append resumeQ12_effects (executeQ12_phase ..)
  have known : Registered base := ⟨attended.registered.queue,attended.registered.copies⟩
  refine ⟨known.resumeQ12 member own id msg,?_,?_,?_,?_⟩
  · rw [resumeQ12_q12TasksQueue]
    intro other listed
    rcases mem_replaceTask listed with ⟨listed,_⟩ | taken
    · exact attended.served other listed
    · unfold Task.served
      rw [(job other taken).scenario,(job other taken).qos]
      exact served
  · rw [resumeQ12_q12TasksQueue]
    intro other listed _
    rw [early]
    rcases mem_replaceTask listed with ⟨listed,away⟩ | taken
    · rw [own] at away
      refine (attended.pending other listed fun same => away (Option.some.inj same).symm).imp_left fun pending => ?_
      refine pending_beside_resumed task.msgId pending keeps fun ids => ?_
      exact away (congrArg Task.addr (List.inj_on_of_nodup_map attended.registered.queue.ids listed member ids))
    · exact .inl (@pending_resumed base _ _ _ _ _ served works faultless taken)
  · rw [resumeQ12_copies]
    exact attended.copies
  · intro none
    rw [resumeQ12_hasData] at none
    exact absurd (attended.empty none ▸ member) List.not_mem_nil

/-- Nobody is about to be resumed. -/
theorem Attended.but (attended : Attended layer none) (next : Option Nat) : Attended layer next :=
  {attended with pending := fun task member _ => attended.pending task member (Option.some_ne_none _).symm}

theorem Attended.push {base : LogicLayer} (attended : Attended base none) (own : task.addr < base.nextAddr)
    (apart : ∀ other ∈ base.q12TasksQueue, other.addr < task.addr) (nonzero : base.lastMsgId + 1 ≠ 0)
    (free : ∀ other ∈ base.q12TasksQueue, other.msgId ≠ base.lastMsgId + 1) (served : task.served = true)
    (works : base.working) (opened : base.connection.connectionState = .opened)
    (faultless : (base.queueQ12Task allocs task).fault = false) : Attended (base.queueQ12Task allocs task) none := by
  let new : Task := {task with msgId := base.lastMsgId + 1}
  let queued : LogicLayer := {base with
    lastMsgId := base.lastMsgId + 1
    q12TasksQueue := base.q12TasksQueue ++ [new]}
  have earlier : Numbered task.addr base.q12TasksQueue := {attended.registered.queue with bound := apart}
  have put : Attended queued (some new.addr) := by
    refine ⟨⟨earlier.append rfl nonzero free own,attended.registered.copies⟩,?_,?_,attended.copies,?_⟩
    · intro other member
      rcases List.mem_append.mp member with member | member
      · exact attended.served other member
      · rw [List.mem_singleton.mp member]
        exact served
    · intro other member away
      rcases List.mem_append.mp member with member | member
      · exact attended.pending other member (Option.some_ne_none _).symm
      · rw [List.mem_singleton.mp member] at away
        exact absurd rfl away
    · exact fun none => absurd (works.2.symm.trans none) Bool.noConfusion
  unfold LogicLayer.queueQ12Task at faultless ⊢
  simp only [if_pos opened] at faultless ⊢
  exact put.resumeQ12 queued.sending (List.mem_append_right _ (List.mem_singleton_self _)) rfl rfl served (.inl works)
    (fun _ member _ => member) faultless

theorem resend_fault {rest : List Task} (fault : layer.fault = true) :
    (rest.foldl (LogicLayer.setNewContextAndCallResend allocs) layer).fault = true := by
  induction rest generalizing layer with
  | nil => exact fault
  | cons task rest ih =>
    apply ih
    unfold LogicLayer.setNewContextAndCallResend
    split
    · rw [resumeQ12_fault,fault]
      rfl
    · exact fault

/-- The stored tasks are sent again one by one; behind the last of them every task is attended to. -/
theorem Attended.resend (attended : Attended layer none) {rest : List Task}
    (listed : ∀ task ∈ rest, task ∈ layer.q12TasksQueue) (apart : (rest.map Task.addr).Nodup)
    (data : layer.hasData = true)
    (works : layer.working ∨ ∀ task ∈ rest, task.sessionState = .store → task.scenario ≠ .publish)
    (done : ∀ task ∈ layer.q12TasksQueue, task ∈ rest ∨ task.Pending layer)
    (faultless : (rest.foldl (LogicLayer.setNewContextAndCallResend allocs) layer).fault = false) :
    Attended (rest.foldl (LogicLayer.setNewContextAndCallResend allocs) layer) none ∧
      ∀ task ∈ (rest.foldl (LogicLayer.setNewContextAndCallResend allocs) layer).q12TasksQueue,
        task.Pending (rest.foldl (LogicLayer.setNewContextAndCallResend allocs) layer) := by
  induction rest generalizing layer with
  | nil => exact ⟨attended,fun task member => (done task member).resolve_left List.not_mem_nil⟩
  | cons task rest ih =>
    rw [List.map_cons,List.nodup_cons] at apart
    have member := listed task (List.mem_cons_self ..)
    rw [List.foldl_cons] at faultless ⊢
    by_cases store : task.sessionState = .store
    · have next : LogicLayer.setNewContextAndCallResend allocs layer task =
          layer.resumeQ12 allocs {task with context := true} .resend task.msg := by
        unfold LogicLayer.setNewContextAndCallResend
        rw [if_pos store]
      rw [next] at faultless ⊢
      have served : ({task with context := true} : Task).served = true := attended.served task member
      have serves : layer.working ∨ (task.scenario = .subscribe ∧ layer.hasData = true) := by
        refine works.imp_right fun past => ⟨?_,data⟩
        have other := past task (List.mem_cons_self ..) store
        simpa [Task.served,other] using served
      have sound : (layer.resumeQ12 allocs {task with context := true} .resend task.msg).fault = false := by
        by_contra failed
        rw [resend_fault (eq_true_of_ne_false failed)] at faultless
        exact absurd faultless Bool.noConfusion
      have resumed : Attended (layer.resumeQ12 allocs {task with context := true} .resend task.msg) none :=
        (attended.but _).resumeQ12 layer.sending member rfl rfl served serves (fun _ kept _ => kept) sound
      refine ih resumed ?_ apart.2 ?_ ?_ ?_ faultless
      · intro other waits
        rw [resumeQ12_q12TasksQueue]
        refine mem_replaceTask_of_ne (listed other (List.mem_cons_of_mem task waits)) fun same => apart.1 ?_
        exact List.mem_map.mpr ⟨other,waits,same⟩
      · rw [resumeQ12_hasData]
        exact data
      · rw [resumeQ12_working]
        exact works.imp_right fun past other waits => past other (List.mem_cons_of_mem task waits)
      · intro other queued
        rw [resumeQ12_q12TasksQueue] at queued
        rcases mem_replaceTask queued with ⟨queued,away⟩ | taken
        · have away : other.addr ≠ task.addr := away
          refine (done other queued).imp (fun waits => ?_) fun pending => ?_
          · exact (List.mem_cons.mp waits).resolve_left fun same => away (congrArg Task.addr same)
          · refine pending_beside_resumed task.msgId pending (fun _ kept _ => kept) fun ids => away (congrArg Task.addr ?_)
            exact List.inj_on_of_nodup_map attended.registered.queue.ids queued member ids
        · exact .inr (pending_resumed served serves sound taken)
    · have next : LogicLayer.setNewContextAndCallResend allocs layer task = layer := by
        unfold LogicLayer.setNewContextAndCallResend
        rw [if_neg store]
      rw [next] at faultless ⊢
      refine ih attended (fun other member => listed other (List.mem_cons_of_mem task member)) apart.2 data
        (works.imp_right fun past other member => past other (List.mem_cons_of_mem task member)) ?_ faultless
      intro other queued
      rcases done other queued with waits | pending
      · rcases List.mem_cons.mp waits with rfl | waits
        · exact .inr ((attended.pending other queued (Option.some_ne_none _).symm).resolve_right fun stored => store stored.2)
        · exact .inl waits
      · exact .inr pending

theorem attended_step (attended : Attended layer none) (anew : event.beginsAnew layer) (starts : startsTasks layer event)
    (move : StepQ12 allocs layer event after) (faultless : after.fault = false) : Attended after none := by
  have ids := attended.registered.queue
  cases move with
  | beside same => exact attended.beside same
  | push q12 works same next operational connection =>
    rename_i request base
    obtain ⟨opened,served,nonzero,free⟩ := starts q12 works
    have own := request.queued_addr layer.nextAddr
    have working : base.working := by
      unfold LogicLayer.working LogicLayer.notOperational
      rw [operational,same.hasData]
      exact works
    refine (attended.beside same).push ?_ ?_ ?_ ?_ served working (connection ▸ opened) faultless
    · rw [own]
      exact next
    · rw [same.q12TasksQueue,own]
      exact ids.bound
    · rw [same.lastMsgId]
      exact nonzero
    · rw [same.q12TasksQueue,same.lastMsgId]
      exact free
  | confirm works positive toServer found =>
    rename_i msgId type written task
    have member := List.mem_of_find?_eq_some found
    unfold findTask at found
    have same : task.msgId = msgId := by simpa using List.find?_some found
    refine (attended.but _).resumeQ12 (layer.sending.erase (msgId,type)) member rfl rfl (attended.served task member)
      (.inl works) (fun entry kept away => ?_) faultless
    refine (List.mem_erase_of_ne fun own => away ?_).mpr kept
    rw [own,same]
  | unheard positive toServer past =>
    rename_i msgId type written
    have nobody : ∀ task ∈ layer.q12TasksQueue, task.msgId = msgId → task.cs ≠ .sent := by
      rcases past with closed | missing
      · exact (starts.resolve_left closed).resolve_left (not_not.mpr toServer)
      · intro task member same
        exact absurd (decide_eq_true same) (List.find?_eq_none.mp missing task member)
    refine {attended with
      registered := ⟨attended.registered.queue,attended.registered.copies⟩
      pending := fun task member other => ?_}
    refine (attended.pending task member other).imp_left fun pending => ?_
    refine pending.mono (fun sent entry kept same _ => ?_) rfl
    refine (List.mem_erase_of_ne fun own => nobody task member ?_ sent).mpr kept
    rw [← same,own]
  | pull works plain positive toServer found =>
    rename_i msg task
    have member := List.mem_of_find?_eq_some found
    refine (attended.but _).resumeQ12 layer.sending member ?_ ?_ (attended.served task member) (.inl works)
      (fun _ kept _ => kept) faultless <;> rfl
  | timeout found pending =>
    rename_i addr task state
    have member := List.mem_of_find?_eq_some found
    have same : task.addr = addr := by simpa using List.find?_some found
    have served := attended.served task member
    have works : layer.working ∨ (task.scenario = .subscribe ∧ layer.hasData = true) := by
      refine starts.imp_right fun past => ⟨?_,?_⟩
      · simpa [Task.served,past task member same] using served
      · by_contra none
        exact absurd (attended.empty (eq_false_of_ne_true none) ▸ member) List.not_mem_nil
    refine (attended.but _).resumeQ12 layer.sending member ?_ ?_ served works (fun _ kept _ => kept) faultless <;> rfl
  | postConnect data =>
    have sent : (layer.q12TasksQueue.foldl (LogicLayer.setNewContextAndCallResend allocs) layer).fault = false := faultless
    obtain ⟨resent,pending⟩ := attended.resend (fun _ member => member) ids.addrs data starts
      (fun _ member => .inl member) sent
    exact {resent with
      registered := ⟨resent.registered.queue,resent.registered.copies⟩
      pending := fun task member _ => .inl (pending task member)}
  | init connection =>
    have move : StepQ12 allocs layer (.init connection) (layer.init connection) := .init connection
    have fresh : freshId layer (.init connection) := trivial
    have early : ¬ (layer.init connection).postConnected := by
      obtain ⟨more,same⟩ := @init_effects layer connection
      unfold LogicLayer.postConnected
      rw [same,observe_append]
      simp [Effect.phase]
    have stored : ∀ task ∈ (layer.init connection).q12TasksQueue, task.served = true ∧ task.sessionState = .store := by
      rw [init_q12TasksQueue,attended.empty anew]
      split
      · exact attended.copies
      · exact fun _ member => absurd member List.not_mem_nil
    refine ⟨registered_step attended.registered fresh move,fun task member => (stored task member).1,
      fun task member _ => .inr ⟨early,(stored task member).2⟩,?_,?_⟩
    · rw [init_copies]
      exact fun _ member => absurd member List.not_mem_nil
    · exact fun none => absurd ((init_hasData connection).symm.trans none) Bool.noConfusion
  | closeExternally past data =>
    rename_i state
    have move : StepQ12 allocs layer (.closeExternally state) _ := .closeExternally past data
    have fresh : freshId layer (.closeExternally state) := trivial
    refine ⟨registered_step attended.registered fresh move,fun _ member => absurd member List.not_mem_nil,
      fun _ member => absurd member List.not_mem_nil,?_,fun _ => rfl⟩
    rw [released_copies]
    split
    · intro task member
      obtain ⟨kept,filtered,rfl⟩ := List.mem_map.mp member
      obtain ⟨mapped,store⟩ := List.mem_filter.mp filtered
      obtain ⟨queued,listed,rfl⟩ := List.mem_map.mp mapped
      exact ⟨attended.served queued listed,of_decide_eq_true store⟩
    · exact attended.copies
  | subscriptionCall =>
    unfold LogicLayer.runSubscriptionCall
    split
    · exact attended
    simp only
    split
    · refine {attended with registered := ⟨attended.registered.queue,attended.registered.copies⟩,pending := ?_}
      intro task member other
      exact (attended.pending task member other).imp_right (And.imp_left fun early => by
        rwa [postConnected_append rfl rfl])
    · exact {attended with registered := ⟨attended.registered.queue,attended.registered.copies⟩}

/-- As long as every task is queued when it can be started, and is not thrown back to its start by a layer that no
longer works, each queued task of an open connection has something that will resume it. -/
theorem none_stuck {events : List Event}
    (orderly : Runs.Admissible stepWith (fun layer call => layer.fault = false →
      call.2.beginsAnew layer ∧ startsTasks layer call.2) {} (allocated events)) :
    Runs.Always stepWith LogicLayer.NoneStuck {} (allocated events) := by
  have start : LogicLayer.fault {} = false → Attended {} none := fun _ =>
    ⟨⟨.nil _,.nil _⟩,fun _ member => absurd member List.not_mem_nil,fun _ member => absurd member List.not_mem_nil,
      fun _ member => absurd member List.not_mem_nil,fun _ => rfl⟩
  have always := Runs.always_of_step (I := fun layer : LogicLayer => layer.fault = false → Attended layer none)
    (fun layer call attended may after => ?_) start orderly
  · refine always.mono fun layer attended faultless _ connected task member => ?_
    have pending := (attended faultless).pending task member (Option.some_ne_none _).symm
    exact pending.resolve_right fun early => early.1 connected
  · cases fault : layer.fault with
    | true =>
      unfold stepWith step at after
      rw [if_pos fault,fault] at after
      exact absurd after Bool.noConfusion
    | false =>
      obtain ⟨anew,starts⟩ := may fault
      exact attended_step (attended fault) anew starts (step_cases12 call.1 fault call.2) after

theorem none_stuck_opened :
    Runs.Always stepWith LogicLayer.NoneStuck {}
      (allocated (openedConnection {keepaliveTimeout := 10} ++
        [.push publishAtLeastOnce,.postConnect,.confirm 1 .publish true])) :=
  none_stuck (by decide +kernel)

/-- A publish that is pushed before the connection is open is never started. -/
theorem stuck_when_pushed_early :
    ¬ (Runs.final stepWith {} (allocated [.init {},.push publishAtLeastOnce,.connect .ok,.confirm 0 .connect true,
      .pull acceptingConnack,.postConnect])).NoneStuck := by
  let layer := Runs.final stepWith {} (allocated [.init {},.push publishAtLeastOnce,.connect .ok,
    .confirm 0 .connect true,.pull acceptingConnack,.postConnect])
  have waits : layer.q12TasksQueue.any (·.cs = .start) = true := by decide +kernel
  have connected : observe Effect.phase layer.effects = [false,true] := by decide +kernel
  obtain ⟨task,member,start⟩ := List.any_eq_true.mp waits
  intro none
  have pending := none (by decide +kernel) (by decide +kernel) (congrArg List.getLast? connected) task member
  unfold Task.Pending at pending
  rw [of_decide_eq_true start] at pending
  exact pending

end Invariant

end XivelyClient.Mqtt.Logic
