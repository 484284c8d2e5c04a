import XivelyClient.Mqtt.Logic.MessageIds

/-! The delivery of QoS 1 messages from the server. -/
namespace XivelyClient.Mqtt.Logic

/-- What becomes of a received message: it is given to a handler or freed. -/
def Effect.handled : Effect → Option (Option SubscribeData × Message)
  | .topicCall data msg => some (some data,msg)
  | .freeMessage msg => some (none,msg)
  | _ => none

/-- The first handler whose topic matches. -/
def LogicLayer.handlerOf (layer : LogicLayer) (msg : Message) : Option SubscribeData :=
  msg.publish.topicName.bind fun topic => layer.handlersForTopics.find? (cmpTopics · topic)

/-- The layer with the QoS 1 messages that have come, in their order, and the ids whose PUBACK has been written, in
the order of the confirmations. -/
structure Incoming where
  layer : LogicLayer
  arrived : List Message := []
  written : List UInt16 := []

namespace Incoming

def idOf (msg : Message) : UInt16 := msg.publish.messageId

def ids (incoming : Incoming) : List UInt16 := incoming.arrived.map idOf

def messageOf (incoming : Incoming) (msgId : UInt16) : Option Message := incoming.arrived.find? (idOf · = msgId)

/-- The messages whose PUBACK has not been written. -/
def waiting (incoming : Incoming) : List Message := incoming.arrived.filter fun msg => idOf msg ∉ incoming.written

def arrive (incoming : Incoming) (event : Event) : List Message :=
  match event with
  | .pull msg => incoming.arrived ++ [msg]
  | _ => incoming.arrived

def write (incoming : Incoming) (event : Event) : List UInt16 :=
  match event with
  | .confirm msgId _ true =>
    if msgId ∈ incoming.ids ∧ msgId ∉ incoming.written then incoming.written ++ [msgId] else incoming.written
  | _ => incoming.written

def step (incoming : Incoming) (event : Event) : Incoming :=
  if incoming.layer.fault then incoming
  else {
    layer := Logic.step {} incoming.layer event
    arrived := incoming.arrive event
    written := incoming.write event}

/-- The arrival of a QoS 1 message with an id of its own, or the confirmation of a PUBACK. -/
def expects (incoming : Incoming) : Event → Prop
  | .pull msg => msg.common.type = .publish ∧ msg.common.qos = 1 ∧ msg.publish.topicName.isSome = true ∧
    idOf msg ∉ incoming.ids
  | .confirm msgId type _ => type = .puback ∧ msgId ∈ incoming.ids
  | _ => False

/-- Each message whose PUBACK has been written has been handled once, as it came, by the handler that matches;
the tasks of the others, and no more, are in the queue. -/
structure Delivered (start : LogicLayer) (incoming : Incoming) : Prop where
  faultless : incoming.layer.fault = false
  handled : observe Effect.handled incoming.layer.effects = observe Effect.handled start.effects ++
    (incoming.written.filterMap incoming.messageOf).map fun msg => (start.handlerOf msg,msg)
  once : incoming.written.Nodup
  known : incoming.written ⊆ incoming.ids
  distinct : incoming.ids.Nodup
  queue : incoming.layer.q12RecvTasksQueue.map (fun task => (task.msgId,task.msg)) =
    incoming.waiting.map fun msg => (idOf msg,some msg)

end Incoming

/-- The messages have ids; the confirmation of a PUBACK with the id 0 is taken for one of the current task. -/
def Event.hasId : Event → Prop
  | .pull msg => Incoming.idOf msg ≠ 0
  | _ => True

/-- An open connection on which no message from the server is under way. -/
structure LogicLayer.Quiescent (layer : LogicLayer) : Prop where
  works : layer.working
  faultless : layer.fault = false
  empty : layer.q12RecvTasksQueue = []

section Queue

variable {addr : Nat} {queue : List Task} {task changed : Task}

theorem replaceTask_none : replaceTask addr none queue = queue.filter (·.addr ≠ addr) := by
  unfold replaceTask
  rw [← List.filterMap_eq_filter]
  refine List.filterMap_congr fun task _ => ?_
  by_cases own : task.addr = addr <;> simp [own,Option.guard]

theorem replaceTask_self (only : ∀ other ∈ queue, other.addr = addr → other = task) :
    replaceTask addr (some task) queue = queue := by
  induction queue with
  | nil => rfl
  | cons head queue ih =>
    have rest := ih fun other member => only other (List.mem_cons_of_mem head member)
    unfold replaceTask at rest ⊢
    by_cases own : head.addr = addr
    · rw [List.filterMap_cons_some (by rw [if_pos own]),rest,only head (List.mem_cons_self ..) own]
    · rw [List.filterMap_cons_some (by rw [if_neg own]),rest]

theorem replaceTask_append (away : ∀ other ∈ queue, other.addr ≠ addr) (own : task.addr = addr) :
    replaceTask addr (some changed) (queue ++ [task]) = queue ++ [changed] := by
  have kept : replaceTask addr (some changed) queue = queue :=
    replaceTask_self fun other member same => absurd same (away other member)
  unfold replaceTask at kept ⊢
  rw [List.filterMap_append,kept,List.filterMap_cons_some (by rw [if_pos own])]
  rfl

end Queue

section Arrival

variable {layer : LogicLayer} {msg : Message} {task : Task}

/-- The task that sends the PUBACK of a message. -/
def pubackTask (addr : Nat) (msg : Message) : Task := {
  addr := addr
  scenario := .puback
  qos := .atLeastOnce
  msg := some msg
  cs := .sent
  msgId := msg.publish.messageId}

theorem onPublishQ1Recieved_start (works : layer.working) (start : task.cs = .start) (state : XiState) :
    onPublishQ1Recieved layer task state (some msg) =
      {task := some {task with cs := .sent},effects := [.send (fillWithPubackData task.msgId)]} := by
  unfold onPublishQ1Recieved
  rw [working_iff.mp works]
  simp only [Bool.false_eq_true,if_false,start]

theorem step_arrival (works : layer.working) (faultless : layer.fault = false) (publish : msg.common.type = .publish)
    (qos : msg.common.qos = 1) (bound : ∀ other ∈ layer.q12RecvTasksQueue, other.addr < layer.nextAddr)
    (unknown : findTask msg.publish.messageId layer.q12RecvTasksQueue = none) :
    step {} layer (.pull msg) = {layer with
      nextAddr := layer.nextAddr + 1
      q12RecvTasksQueue := layer.q12RecvTasksQueue ++ [pubackTask layer.nextAddr msg]
      sending := layer.sending ++ [(getMessageId (fillWithPubackData msg.publish.messageId),
        (fillWithPubackData msg.publish.messageId).common.type)]
      effects := layer.effects ++ [.send (fillWithPubackData msg.publish.messageId)]} := by
  unfold step
  rw [if_neg (by rw [faultless]; exact Bool.false_ne_true)]
  simp only [LogicLayer.pull]
  rw [working_iff.mp works]
  simp only [Bool.false_eq_true,if_false,publish,if_true]
  unfold LogicLayer.onPublishRecieved
  rw [qos]
  simp only [LogicLayer.addRecvTask,unknown,Option.isSome_none]
  unfold LogicLayer.resumeRecv
  rw [onPublishQ1Recieved_start ?_ rfl]
  · simp only [LogicLayer.failIf]
    rw [replaceTask_append (fun other member => (bound other member).ne) rfl]
    simp only [LogicLayer.perform,List.foldl_cons,List.foldl_nil,LogicLayer.apply,Bool.or_false]
    rfl
  · exact works

/-- The confirmation of a PUBACK that nobody waits for. -/
theorem step_confirm_unknown {msgId : UInt16} (faultless : layer.fault = false)
    (positive : msgId ≠ 0) (unknown : findTask msgId layer.q12RecvTasksQueue = none) (written : Bool) :
    step {} layer (.confirm msgId .puback written) = {layer with sending := layer.sending.erase (msgId,.puback)} := by
  unfold step
  rw [if_neg (by rw [faultless]; exact Bool.false_ne_true)]
  simp only [LogicLayer.confirmed,LogicLayer.confirm]
  split
  · rfl
  · simp only [classMsgTypeSending,unknown]

theorem step_confirm_known {msgId : UInt16} (works : layer.working) (faultless : layer.fault = false)
    (positive : msgId ≠ 0) (known : findTask msgId layer.q12RecvTasksQueue = some task) (written : Bool) :
    step {} layer (.confirm msgId .puback written) = {layer with sending := layer.sending.erase (msgId,.puback)}.resumeRecv
      task (if written then .written else .failedWriting) task.msg := by
  unfold step
  rw [if_neg (by rw [faultless]; exact Bool.false_ne_true)]
  simp only [LogicLayer.confirmed,LogicLayer.confirm]
  split
  · rename_i closed
    exact absurd works (not_working_iff.mpr closed)
  · simp only [classMsgTypeSending,known]

theorem onPublishQ1Recieved_failed (works : layer.working) (sent : task.cs = .sent) (msg : Option Message) :
    onPublishQ1Recieved layer task .failedWriting msg =
      {task := some task,effects := [.send (fillWithPubackData task.msgId)]} := by
  unfold onPublishQ1Recieved
  rw [working_iff.mp works]
  simp only [Bool.false_eq_true,if_false,sent]
  rfl

theorem onPublishQ1Recieved_written (works : layer.working) (sent : task.cs = .sent)
    (topic : msg.publish.topicName.isSome = true) :
    (onPublishQ1Recieved layer task .written (some msg)).task = none ∧
      (onPublishQ1Recieved layer task .written (some msg)).fault = false ∧
      observe Effect.handled (onPublishQ1Recieved layer task .written (some msg)).effects = [(layer.handlerOf msg,msg)] := by
  obtain ⟨topic,same⟩ := Option.isSome_iff_exists.mp topic
  unfold onPublishQ1Recieved
  rw [working_iff.mp works]
  simp only [Bool.false_eq_true,if_false,sent]
  unfold callTopicHandler LogicLayer.handlerOf
  rw [same]
  simp only [Option.bind_some]
  cases found : layer.handlersForTopics.find? (cmpTopics · topic) with
  | none => exact ⟨rfl,rfl,rfl⟩
  | some data => exact ⟨rfl,rfl,rfl⟩

theorem resumeRecv_failed (works : layer.working) (sent : task.cs = .sent) (msg : Option Message)
    (only : ∀ other ∈ layer.q12RecvTasksQueue, other.addr = task.addr → other = task) :
    layer.resumeRecv task .failedWriting msg = {layer with
      sending := layer.sending ++ [(getMessageId (fillWithPubackData task.msgId),
        (fillWithPubackData task.msgId).common.type)]
      effects := layer.effects ++ [.send (fillWithPubackData task.msgId)]} := by
  unfold LogicLayer.resumeRecv
  rw [onPublishQ1Recieved_failed works sent]
  simp only
  rw [replaceTask_self only]
  simp only [LogicLayer.perform,LogicLayer.failIf,List.foldl_cons,List.foldl_nil,LogicLayer.apply,Bool.or_false]

/-- What the confirmation of a PUBACK leaves behind. -/
structure HandledBy (layer : LogicLayer) (task : Task) (msg : Message) (after : LogicLayer) : Prop where
  works : after.working
  fault : after.fault = layer.fault
  handlers : after.handlersForTopics = layer.handlersForTopics
  nextAddr : after.nextAddr = layer.nextAddr
  queue : after.q12RecvTasksQueue = layer.q12RecvTasksQueue.filter (·.addr ≠ task.addr)
  handled : observe Effect.handled after.effects = observe Effect.handled layer.effects ++ [(layer.handlerOf msg,msg)]

theorem resumeRecv_written (works : layer.working) (sent : task.cs = .sent)
    (topic : msg.publish.topicName.isSome = true) :
    HandledBy layer task msg (layer.resumeRecv task .written (some msg)) := by
  obtain ⟨ended,sound,handled⟩ := onPublishQ1Recieved_written works sent topic
  have same : Undisturbed layer _ := Undisturbed.resumeRecv task .written (some msg)
  have each := List.all_eq_true.mp (onPublishQ1Recieved_quiet layer task .written (some msg))
  refine ⟨?_,?_,?_,?_,?_,?_⟩
  · unfold LogicLayer.working LogicLayer.notOperational
    rw [same.layerState,same.hasData]
    exact works
  · unfold LogicLayer.resumeRecv LogicLayer.failIf
    simp only
    rw [sound,Bool.or_false,LogicLayer.perform_fault each]
  · exact perform_handlers (not_reserved_of_own (onPublishQ1Recieved_own layer task .written (some msg)))
  · exact LogicLayer.perform_nextAddr
  · refine LogicLayer.perform_q12RecvTasksQueue.trans ?_
    simp only
    rw [ended,replaceTask_none]
  · unfold LogicLayer.resumeRecv LogicLayer.failIf
    simp only
    rw [LogicLayer.perform_effects,observe_append,handled]

end Arrival

section Flow

variable {start : LogicLayer} {incoming : Incoming} {event : Event}

namespace Incoming

/-- What every call keeps. -/
structure Flow (start : LogicLayer) (incoming : Incoming) : Prop where
  delivered : Delivered start incoming
  works : incoming.layer.working
  handlers : incoming.layer.handlersForTopics = start.handlersForTopics
  sent : ∀ task ∈ incoming.layer.q12RecvTasksQueue, task.cs = .sent
  numbered : Numbered incoming.layer.nextAddr incoming.layer.q12RecvTasksQueue
  topics : ∀ msg ∈ incoming.arrived, msg.publish.topicName.isSome = true
  nonzero : ∀ msg ∈ incoming.arrived, idOf msg ≠ 0

/-- A task of the queue and the message that it is there for. -/
theorem Flow.waits (flow : Flow start incoming) {task : Task} (member : task ∈ incoming.layer.q12RecvTasksQueue) :
    ∃ msg ∈ incoming.arrived, idOf msg = task.msgId ∧ task.msg = some msg ∧ task.msgId ∉ incoming.written := by
  have listed := List.mem_map_of_mem (f := fun task : Task => (task.msgId,task.msg)) member
  rw [flow.delivered.queue] at listed
  obtain ⟨msg,waits,tag⟩ := List.mem_map.mp listed
  obtain ⟨same,own⟩ := Prod.mk.inj tag
  obtain ⟨arrived,unwritten⟩ := List.mem_filter.mp waits
  exact ⟨msg,arrived,same,own.symm,same ▸ of_decide_eq_true unwritten⟩

theorem Flow.arrival (flow : Flow start incoming) {msg : Message} (expected : incoming.expects (.pull msg))
    (hasId : idOf msg ≠ 0) : Flow start (incoming.step (.pull msg)) := by
  obtain ⟨publish,qos,topic,fresh⟩ := expected
  obtain ⟨faultless,handled,once,known,distinct,queue⟩ := flow.delivered
  have others : ∀ task ∈ incoming.layer.q12RecvTasksQueue, task.msgId ≠ msg.publish.messageId := by
    intro task member same
    obtain ⟨other,arrived,own,_⟩ := flow.waits member
    exact fresh (List.mem_map.mpr ⟨other,arrived,own.trans same⟩)
  have unknown : findTask msg.publish.messageId incoming.layer.q12RecvTasksQueue = none :=
    List.find?_eq_none.mpr fun task member same => others task member (of_decide_eq_true same)
  have after := step_arrival flow.works faultless publish qos flow.numbered.bound unknown
  have stepped : incoming.step (.pull msg) =
      {layer := Logic.step {} incoming.layer (.pull msg),arrived := incoming.arrived ++ [msg],written := incoming.written} := by
    unfold step
    rw [if_neg (by rw [faultless]; exact Bool.false_ne_true)]
    rfl
  rw [stepped,after]
  have unwritten : idOf msg ∉ incoming.written := fun member => fresh (known member)
  refine ⟨⟨faultless,?_,once,?_,?_,?_⟩,flow.works,flow.handlers,?_,?_,?_,?_⟩
  · have still : incoming.written.filterMap (fun id => (incoming.arrived ++ [msg]).find? (idOf · = id)) =
        incoming.written.filterMap incoming.messageOf := by
      refine List.filterMap_congr fun id member => ?_
      obtain ⟨other,arrived,same⟩ := List.mem_map.mp (known member)
      have found : (incoming.arrived.find? (idOf · = id)).isSome = true :=
        List.find?_isSome.mpr ⟨other,arrived,decide_eq_true same⟩
      rw [List.find?_append]
      obtain ⟨first,same⟩ := Option.isSome_iff_exists.mp found
      unfold messageOf
      rw [same]
      rfl
    have moved : observe Effect.handled (incoming.layer.effects ++ [.send (fillWithPubackData msg.publish.messageId)]) =
        observe Effect.handled incoming.layer.effects := by
      rw [observe_append]
      exact List.append_nil _
    change observe Effect.handled (_ ++ _) = observe Effect.handled start.effects ++ (incoming.written.filterMap _).map _
    rw [moved,handled]
    exact congrArg _ (congrArg _ still.symm)
  · intro id member
    obtain ⟨other,arrived,same⟩ := List.mem_map.mp (known member)
    exact List.mem_map.mpr ⟨other,List.mem_append_left _ arrived,same⟩
  · change ((incoming.arrived ++ [msg]).map idOf).Nodup
    rw [List.map_append,List.map_singleton]
    refine List.nodup_append.mpr ⟨distinct,List.nodup_singleton _,?_⟩
    intro id member other same
    rw [List.mem_singleton.mp same]
    exact fun clash => fresh (clash ▸ member)
  · change List.map _ (_ ++ [pubackTask _ msg]) = ((incoming.arrived ++ [msg]).filter _).map _
    rw [List.map_append,queue,List.filter_append,List.map_append,List.filter_singleton]
    simp only [unwritten,not_false_eq_true,decide_true]
    rfl
  · intro task member
    rcases List.mem_append.mp member with member | member
    · exact flow.sent task member
    · rw [List.mem_singleton.mp member]
      rfl
  · exact flow.numbered.append rfl hasId others (Nat.lt_succ_self _)
  · intro other member
    rcases List.mem_append.mp member with member | member
    · exact flow.topics other member
    · rw [List.mem_singleton.mp member]
      exact topic
  · intro other member
    rcases List.mem_append.mp member with member | member
    · exact flow.nonzero other member
    · rw [List.mem_singleton.mp member]
      exact hasId

theorem messageOf_own (flow : Flow start incoming) {msg : Message} (arrived : msg ∈ incoming.arrived) :
    incoming.messageOf (idOf msg) = some msg := by
  cases found : incoming.messageOf (idOf msg) with
  | none => exact absurd (decide_eq_true rfl) (List.find?_eq_none.mp found msg arrived)
  | some other =>
    unfold messageOf at found
    have same : idOf other = idOf msg := by simpa using List.find?_some found
    rw [List.inj_on_of_nodup_map flow.delivered.distinct (List.mem_of_find?_eq_some found) arrived same]

/-- A confirmation that nobody waits for changes nothing that is seen. -/
theorem Flow.unheard (flow : Flow start incoming) {msgId : UInt16} (known : msgId ∈ incoming.ids) (nonzero : msgId ≠ 0)
    (unknown : findTask msgId incoming.layer.q12RecvTasksQueue = none) (written : Bool) :
    Flow start (incoming.step (.confirm msgId .puback written)) := by
  have faultless := flow.delivered.faultless
  have old : msgId ∈ incoming.written := by
    by_contra unwritten
    obtain ⟨msg,arrived,own⟩ := List.mem_map.mp known
    have waits : msg ∈ incoming.waiting := List.mem_filter.mpr ⟨arrived,decide_eq_true (own ▸ unwritten)⟩
    have listed := List.mem_map_of_mem (f := fun msg : Message => (idOf msg,some msg)) waits
    rw [← flow.delivered.queue] at listed
    obtain ⟨task,member,tag⟩ := List.mem_map.mp listed
    refine List.find?_eq_none.mp unknown task member (decide_eq_true ?_)
    exact (Prod.mk.inj tag).1.trans own
  have same : incoming.write (.confirm msgId .puback written) = incoming.written := by
    unfold write
    cases written with
    | false => rfl
    | true => exact if_neg fun new => new.2 old
  have stepped : incoming.step (.confirm msgId .puback written) = {incoming with
      layer := {incoming.layer with sending := incoming.layer.sending.erase (msgId,.puback)}} := by
    unfold step
    rw [if_neg (by rw [faultless]; exact Bool.false_ne_true),same,step_confirm_unknown faultless nonzero unknown]
    rfl
  rw [stepped]
  exact {flow with delivered := {flow.delivered with}}

theorem Flow.heard (flow : Flow start incoming) {msgId : UInt16} (known : msgId ∈ incoming.ids) (nonzero : msgId ≠ 0)
    {task : Task} (found : findTask msgId incoming.layer.q12RecvTasksQueue = some task) (written : Bool) :
    Flow start (incoming.step (.confirm msgId .puback written)) := by
  obtain ⟨faultless,handled,once,subset,distinct,queue⟩ := flow.delivered
  have member := List.mem_of_find?_eq_some found
  have own : task.msgId = msgId := by
    unfold findTask at found
    simpa using List.find?_some found
  obtain ⟨msg,arrived,same,content,unwritten⟩ := flow.waits member
  rw [own] at same unwritten
  have sent := flow.sent task member
  have only : ∀ other ∈ incoming.layer.q12RecvTasksQueue, other.addr = task.addr → other = task :=
    fun other listed => eq_of_addr flow.numbered member listed
  have after := step_confirm_known flow.works faultless nonzero found written
  have stepped : incoming.step (.confirm msgId .puback written) = {incoming with
      layer := Logic.step {} incoming.layer (.confirm msgId .puback written)
      written := incoming.write (.confirm msgId .puback written)} := by
    unfold step
    rw [if_neg (by rw [faultless]; exact Bool.false_ne_true)]
    rfl
  rw [stepped,after]
  let base : LogicLayer := {incoming.layer with sending := incoming.layer.sending.erase (msgId,.puback)}
  have works : base.working := flow.works
  cases written with
  | false =>
    -- the PUBACK is sent once more
    rw [if_neg Bool.false_ne_true,resumeRecv_failed works sent task.msg only]
    refine {flow with delivered := {flow.delivered with handled := ?_}}
    change observe Effect.handled (incoming.layer.effects ++ _) = _
    rw [observe_append]
    exact (List.append_nil _).trans handled
  | true =>
    have write : incoming.write (.confirm msgId .puback true) = incoming.written ++ [msgId] := if_pos ⟨known,unwritten⟩
    have topic := flow.topics msg arrived
    have moved : HandledBy base task msg (base.resumeRecv task .written (some msg)) := resumeRecv_written works sent topic
    have others : ∀ other ∈ incoming.layer.q12RecvTasksQueue, other.addr ≠ task.addr ↔ other.msgId ≠ msgId := by
      intro other listed
      refine not_congr ⟨fun clash => only other listed clash ▸ own,fun clash => ?_⟩
      rw [List.inj_on_of_nodup_map flow.numbered.ids listed member (clash.trans own.symm)]
    have left : base.q12RecvTasksQueue.filter (·.addr ≠ task.addr) = base.q12RecvTasksQueue.filter (·.msgId ≠ msgId) :=
      List.filter_congr fun other listed => decide_eq_decide.mpr (others other listed)
    rw [if_pos rfl,content,write]
    refine ⟨⟨moved.fault.trans faultless,?_,?_,?_,distinct,?_⟩,moved.works,moved.handlers.trans flow.handlers,?_,?_,
      flow.topics,flow.nonzero⟩
    · have handler : base.handlerOf msg = start.handlerOf msg := by
        unfold LogicLayer.handlerOf
        rw [flow.handlers]
      refine moved.handled.trans ?_
      change _ = _ ++ List.map _ (List.filterMap incoming.messageOf (incoming.written ++ [msgId]))
      rw [List.filterMap_append,List.map_append,← List.append_assoc,← handled,← same,handler]
      rw [List.filterMap_cons_some (messageOf_own flow arrived)]
      rfl
    · exact List.nodup_append.mpr ⟨once,List.nodup_singleton _,fun id listed other tag clash =>
        unwritten (List.mem_singleton.mp tag ▸ clash ▸ listed)⟩
    · exact List.append_subset.mpr ⟨subset,fun id listed => List.mem_singleton.mp listed ▸ known⟩
    · rw [moved.queue,left]
      have tasks : (base.q12RecvTasksQueue.filter (·.msgId ≠ msgId)).map (fun task => (task.msgId,task.msg)) =
          (base.q12RecvTasksQueue.map fun task => (task.msgId,task.msg)).filter (·.1 ≠ msgId) := by
        rw [List.filter_map]
        rfl
      have msgs : (incoming.waiting.map fun msg => (idOf msg,some msg)).filter (·.1 ≠ msgId) =
          (incoming.waiting.filter fun msg => idOf msg ≠ msgId).map fun msg => (idOf msg,some msg) := by
        rw [List.filter_map]
        rfl
      rw [tasks,queue,msgs]
      refine congrArg _ ?_
      unfold waiting
      rw [List.filter_filter]
      refine List.filter_congr fun msg _ => ?_
      simp only [List.mem_append,List.mem_singleton,not_or,Bool.decide_and,Bool.and_comm]
    · intro other listed
      rw [moved.queue] at listed
      exact flow.sent other (List.mem_of_mem_filter listed)
    · rw [moved.nextAddr,moved.queue]
      exact flow.numbered.of_map_sublist (List.filter_sublist.map _) (List.filter_sublist.map _)

theorem Flow.step (flow : Flow start incoming) (expected : incoming.expects event) (hasId : event.hasId) :
    Flow start (incoming.step event) := by
  cases event with
  | pull msg => exact flow.arrival expected hasId
  | confirm msgId type written =>
    obtain ⟨rfl,known⟩ := expected
    obtain ⟨msg,arrived,own⟩ := List.mem_map.mp known
    have nonzero : msgId ≠ 0 := own ▸ flow.nonzero msg arrived
    cases found : findTask msgId incoming.layer.q12RecvTasksQueue with
    | none => exact flow.unheard known nonzero found written
    | some task => exact flow.heard known nonzero found written
  | _ => exact expected.elim

theorem flow_start (quiescent : start.Quiescent) : Flow start {layer := start} where
  delivered := {
    faultless := quiescent.faultless
    handled := (List.append_nil _).symm
    once := List.nodup_nil
    known := List.nil_subset _
    distinct := List.nodup_nil
    queue := by
      rw [quiescent.empty]
      rfl}
  works := quiescent.works
  handlers := rfl
  sent := by
    rw [quiescent.empty]
    exact fun _ member => absurd member List.not_mem_nil
  numbered := by
    rw [quiescent.empty]
    exact Numbered.nil _
  topics := fun _ member => absurd member List.not_mem_nil
  nonzero := fun _ member => absurd member List.not_mem_nil

end Incoming

instance (incoming : Incoming) : ∀ event, Decidable (incoming.expects event ∧ event.hasId)
  | .pull msg => inferInstanceAs (Decidable ((msg.common.type = .publish ∧ msg.common.qos = 1 ∧
      msg.publish.topicName.isSome = true ∧ Incoming.idOf msg ∉ incoming.ids) ∧ Incoming.idOf msg ≠ 0))
  | .confirm msgId type _ => inferInstanceAs (Decidable ((type = .puback ∧ msgId ∈ incoming.ids) ∧ True))
  | .push _ | .pullFailed _ | .taskTimeout _ | .orphanTimeout _ | .keepaliveOnce | .init _ | .connect _ | .postConnect
  | .close _ | .closeExternally _ | .setConnectionState _ | .subscriptionCall => isFalse fun expected => expected.1

/-- On an open connection, while every message has an id of its own and none has the id 0, each is handled once its
PUBACK has been written, and not before. -/
theorem incoming_delivered {start : LogicLayer} {events : List Event} (quiescent : start.Quiescent)
    (expected : Runs.Admissible Incoming.step (fun incoming event => incoming.expects event ∧ event.hasId)
      (Incoming.mk start [] []) events) :
    Runs.Always Incoming.step (Incoming.Delivered start) (Incoming.mk start [] []) events := by
  have always := Runs.always_of_step (I := Incoming.Flow start)
    (fun incoming event flow expected => flow.step expected.1 expected.2) (Incoming.flow_start quiescent) expected
  exact always.mono fun _ flow => flow.delivered

/-- An open connection. -/
def openLayer : LogicLayer := Runs.final (step {}) {} (openedConnection {keepaliveTimeout := 10})

/-- A QoS 1 message from the server. -/
def serverMessage (msgId : UInt16) : Message := {
  common := {commonValue := Common.ofBits 0 1 0 .publish}
  publish := {topicName := some (.ofBytes .managed [116]),messageId := msgId}}

/-- There is a handler of the topic. -/
def listeningLayer : LogicLayer := {openLayer with handlersForTopics := [⟨1,[116],5,1⟩]}

theorem incoming_delivered_crossed :
    Runs.Always Incoming.step (Incoming.Delivered listeningLayer) (Incoming.mk listeningLayer [] [])
      [.pull (serverMessage 1),.pull (serverMessage 2),.confirm 2 .puback true,.confirm 1 .puback false,
        .confirm 1 .puback true] :=
  incoming_delivered ⟨⟨by decide +kernel,by decide +kernel⟩,by decide +kernel,by decide +kernel⟩ (by decide +kernel)

/-- The confirmation of the PUBACK of a message with the id 0 is taken for one of the current task. -/
theorem incoming_not_delivered : ¬ Runs.Always Incoming.step (Incoming.Delivered openLayer) (Incoming.mk openLayer [] [])
    [.pull (serverMessage 0),.confirm 0 .puback true] := by
  intro always
  have last := always.last.queue
  revert last
  decide +kernel

end Flow

end XivelyClient.Mqtt.Logic
