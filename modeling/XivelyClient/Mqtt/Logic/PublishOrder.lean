import XivelyClient.Mqtt.Logic.QueueQ0

/-! The order of the QoS 0 publishes of a connection. Publishes are told apart by the address of their
task; an address is never used again. -/
namespace XivelyClient.Mqtt.Logic

def Effect.startedAddr : Effect → Option Nat
  | .started addr => some addr
  | _ => none

/-- A publish that has not come past its first check. -/
def Task.waits (task : Task) : Bool :=
  task.scenario = .publish && (task.cs = .start || task.cs = .retry)

def startedAddrs (effects : List Effect) : List Nat := observe Effect.startedAddr effects

/-- The publishes that have been executed. -/
def LogicLayer.executed (layer : LogicLayer) : List Nat := startedAddrs layer.effects

def publishes (queue : List Task) : List Nat := (queue.filter (·.scenario = .publish)).map Task.addr

def waitingTask (task : Option Task) : List Nat := (task.filter Task.waits).toList.map Task.addr

/-- The publishes that wait, the current task first. -/
def LogicLayer.waiting (layer : LogicLayer) : List Nat :=
  waitingTask layer.currentQ0Task ++ publishes layer.q0TasksQueue

/-- What the CONNECT waits for on the way to an open connection. -/
def Event.expected (task : Task) : Event → Prop
  | .confirm _ _ written => task.cs = .sent ∧ written = true
  | .pull msg => task.cs = .reply ∧ msg.common.type = .connack ∧ msg.connack.returnCode = 0
  | _ => False

/-- Within one connection: a publish is pushed while the layer works, and never puts a waiting publish to
the back; where the CONNECT ends without a connection, one publish at most waits behind it. -/
def keepsOrder (layer : LogicLayer) : Event → Prop
  | .push (.publish _ _ .atMostOnce _ _) =>
    layer.working ∧ (layer.connection.connectionState = .opening → layer.currentQ0Task = none →
      publishes layer.q0TasksQueue = [])
  | .push _ => True
  | .init _ | .closeExternally _ => False
  | .setConnectionState state => state ≠ .opening
  | event => layer.connection.connectionState = .opening → ∀ task, layer.currentQ0Task = some task →
    event.reachesQ0 layer → event.expected task ∨ (publishes layer.q0TasksQueue).length ≤ 1

/-- The layer with the publishes that have been pushed. -/
structure Publishing where
  layer : LogicLayer
  pushed : List Nat := []

namespace Publishing

def pushedBy (layer : LogicLayer) : Event → List Nat
  | .push (.publish _ _ .atMostOnce _ _) => [layer.nextAddr]
  | _ => []

def step (state : Publishing) (event : Event) : Publishing :=
  if state.layer.fault then state
  else {layer := Logic.step {} state.layer event,pushed := state.pushed ++ pushedBy state.layer event}

end Publishing

section Execution

variable (layer : LogicLayer) (task : Task) (state : XiState) (msg : Option Message)

theorem blind_startedAddr : Blind Effect.startedAddr := by
  intro effect quiet
  cases effect <;> first | rfl | exact absurd quiet Bool.false_ne_true

theorem waitingTask_of_not {task : Task} (other : task.waits = false) : waitingTask (some task) = [] := by
  rw [waitingTask,Option.filter_some,if_neg (by rw [other]; exact Bool.false_ne_true)]
  rfl

theorem waitingTask_of {task : Task} (waits : task.waits = true) : waitingTask (some task) = [task.addr] := by
  rw [waitingTask,Option.filter_some,if_pos waits]
  rfl

/-- A publish is started once, where it stops waiting. -/
theorem doMqttPublishQ0_order (publish : task.scenario = .publish) :
    startedAddrs (doMqttPublishQ0 layer task state msg).effects ++
      waitingTask (doMqttPublishQ0 layer task state msg).task = waitingTask (some task) := by
  have free := observe_free blind_startedAddr task
  have freeData := observe_freeData blind_startedAddr task
  have callback := fun state => observe_callback blind_startedAddr task state
  have fresh (cs : task.cs = .start ∨ task.cs = .retry) : waitingTask (some task) = [task.addr] := by
    apply waitingTask_of
    rcases cs with cs | cs <;> simp [Task.waits,publish,cs]
  have gone (cs : task.cs = .sent ∨ task.cs = .reply) : waitingTask (some task) = [] := by
    apply waitingTask_of_not
    rcases cs with cs | cs <;> simp [Task.waits,cs]
  have sent : waitingTask (some {task with cs := .sent}) = [] := waitingTask_of_not (by simp [Task.waits])
  unfold doMqttPublishQ0 startedAddrs
  split
  · rfl
  split
  · rfl
  split
  iterate 2
    rename_i cs
    split
    · split
      · rw [fresh (by simp [cs])]
        simp [free,callback,Effect.startedAddr,waitingTask]
      · rw [fresh (by simp [cs]),sent]
        simp [Effect.startedAddr]
    · rfl
  iterate 2
    rename_i cs
    rw [gone (by simp [cs])]
    simp [freeData,callback,Effect.startedAddr,waitingTask]

/-- A command other than a publish starts no publish. -/
theorem Outcome.Command.order {outcome : Outcome} (command : outcome.Command task)
    (scenario : task.scenario ≠ .publish) :
    startedAddrs outcome.effects ++ waitingTask outcome.task = waitingTask (some task) := by
  have none : startedAddrs outcome.effects = [] := by
    apply command.observe
    intro effect belongs
    cases effect with
    | started addr => exact absurd (of_decide_eq_true belongs) scenario
    | _ => rfl
  rw [none,waitingTask_of_not (by simp [Task.waits,scenario]),List.nil_append]
  rcases same : outcome.task with _ | result
  · rfl
  · exact waitingTask_of_not (by simp [Task.waits,command.scenario result same,scenario])

/-- Whatever the current task is resumed with, the order of the publishes stays. -/
theorem executeQ0_order :
    startedAddrs (layer.executeQ0 task state msg).effects ++ waitingTask (layer.executeQ0 task state msg).task =
      waitingTask (some task) := by
  by_cases publish : task.scenario = .publish
  · unfold LogicLayer.executeQ0
    rw [publish]
    exact doMqttPublishQ0_order layer task state msg publish
  · exact (executeQ0_command layer task state msg).order task publish

end Execution

section Order

variable {started pushed : List Nat} {layer after : LogicLayer} {current : Option Task} {task : Task}
  {queue : List Task}

theorem publishes_append (queue more : List Task) : publishes (queue ++ more) = publishes queue ++ publishes more := by
  rw [publishes,List.filter_append,List.map_append]
  rfl

theorem publishes_publish (scenario : task.scenario = .publish) (queue : List Task) :
    publishes (task :: queue) = task.addr :: publishes queue := by
  rw [publishes,List.filter_cons_of_pos (by simp [scenario])]
  rfl

theorem publishes_other (scenario : task.scenario ≠ .publish) (queue : List Task) :
    publishes (task :: queue) = publishes queue := by
  rw [publishes,List.filter_cons_of_neg (by simp [scenario])]
  rfl

theorem publishes_tail_le (task : Task) (queue : List Task) :
    (publishes queue).length ≤ (publishes (task :: queue)).length := by
  by_cases scenario : task.scenario = .publish
  · rw [publishes_publish scenario]
    exact Nat.le_succ _
  · rw [publishes_other scenario]

/-- The publishes that were executed and those that wait are the ones that were pushed, in their order. -/
structure Ordered (started pushed : List Nat) (layer : LogicLayer) (current : Option Task) (queue : List Task) :
    Prop where
  order : layer.executed ++ (waitingTask current ++ publishes queue) = started ++ pushed
  fresh : ∀ task ∈ queue, task.cs = .start
  single : layer.connection.connectionState = .opening → current = none → (publishes queue).length ≤ 1
  connecting : layer.connection.connectionState = .opening → ∀ task, current = some task → task.scenario = .connect
  known : ∀ addr ∈ pushed, addr < layer.nextAddr
  nodup : pushed.Nodup

/-- A change beside the publishes that does not begin to open the connection. -/
theorem Ordered.beside (ordered : Ordered started pushed layer current queue)
    (executed : after.executed = layer.executed) (opening : after.connection.connectionState = .opening →
      layer.connection.connectionState = .opening) (next : layer.nextAddr ≤ after.nextAddr) :
    Ordered started pushed after current queue where
  order := by
    rw [executed]
    exact ordered.order
  fresh := ordered.fresh
  single := fun still => ordered.single (opening still)
  connecting := fun still => ordered.connecting (opening still)
  known := fun addr member => (ordered.known addr member).trans_le next
  nodup := ordered.nodup

theorem Ordered.undisturbed (ordered : Ordered started pushed layer current queue) (same : Undisturbed layer after) :
    Ordered started pushed after current queue :=
  ordered.beside (same.observe blind_startedAddr) (fun opening => same.connection ▸ opening) same.nextAddr

theorem Ordered.holds_undisturbed (ordered : HoldsQ0 (Ordered started pushed) layer) (same : Undisturbed layer after) :
    HoldsQ0 (Ordered started pushed) after :=
  .of_same same.currentQ0Task same.q0TasksQueue (Ordered.undisturbed ordered same)

theorem Ordered.perform (ordered : Ordered started pushed layer current queue) {effects : List Effect}
    (none : startedAddrs effects = []) : Ordered started pushed (layer.perform effects) current queue := by
  refine ordered.beside ?_ perform_opening LogicLayer.perform_nextAddr.ge
  unfold LogicLayer.executed startedAddrs at *
  rw [LogicLayer.perform_effects,observe_append,none,List.append_nil]

theorem Ordered.holds_perform {effects : List Effect} (ordered : HoldsQ0 (Ordered started pushed) layer)
    (none : startedAddrs effects = []) : HoldsQ0 (Ordered started pushed) (layer.perform effects) :=
  .of_same LogicLayer.perform_currentQ0Task LogicLayer.perform_q0TasksQueue (Ordered.perform ordered none)

/-- The current task at its next wait point, or gone. -/
theorem Ordered.resume (ordered : Ordered started pushed layer current queue) {outcome : Outcome}
    (order : startedAddrs outcome.effects ++ waitingTask outcome.task = waitingTask current)
    (connecting : layer.connection.connectionState = .opening →
      ∀ result, outcome.task = some result → result.scenario = .connect)
    (last : (layer.perform outcome.effects).connection.connectionState = .opening → outcome.task = none →
      (publishes queue).length ≤ 1) :
    Ordered started pushed ((layer.perform outcome.effects).failIf outcome.fault) outcome.task queue where
  order := by
    have before := ordered.order
    unfold LogicLayer.executed startedAddrs at *
    change observe _ (layer.perform outcome.effects).effects ++ _ = _
    rw [LogicLayer.perform_effects,observe_append,← before,← order]
    simp only [List.append_assoc]
  fresh := ordered.fresh
  single := last
  connecting := fun opening => connecting (perform_opening opening)
  known := by
    intro addr member
    change addr < (layer.perform outcome.effects).nextAddr
    rw [LogicLayer.perform_nextAddr]
    exact ordered.known addr member
  nodup := ordered.nodup

theorem stable_ordered (started pushed : List Nat) : StableQ0 (Ordered started pushed) where
  blind := fun _ _ _ _ _ ordered =>
    ⟨ordered.order,ordered.fresh,ordered.single,ordered.connecting,ordered.known,ordered.nodup⟩
  rotate := by
    intro layer task queue ordered opening other
    have single := ordered.single opening rfl
    have same : publishes (queue ++ [task]) = publishes (task :: queue) := by
      rw [publishes_append]
      by_cases scenario : task.scenario = .publish
      · rw [publishes_publish scenario] at single ⊢
        have none : publishes queue = [] := List.length_eq_zero_iff.mp (Nat.le_zero.mp (Nat.le_of_succ_le_succ single))
        rw [publishes_publish scenario,none]
        rfl
      · rw [publishes_other scenario,publishes_other scenario]
        exact List.append_nil _
    refine ⟨?_,?_,fun _ _ => by rw [same]; exact single,ordered.connecting,ordered.known,ordered.nodup⟩
    · rw [same]
      exact ordered.order
    · intro each member
      rcases List.mem_append.mp member with member | member
      · exact ordered.fresh each (List.mem_cons_of_mem task member)
      · rw [List.mem_singleton.mp member]
        exact ordered.fresh task (List.mem_cons_self ..)
  start := by
    intro layer task queue ordered connecting
    have order := executeQ0_order layer task .ok task.msg
    have scenario := (executeQ0_command layer task .ok task.msg).scenario
    have head : waitingTask (some task) ++ publishes queue = publishes (task :: queue) := by
      have fresh := ordered.fresh task (List.mem_cons_self ..)
      by_cases publish : task.scenario = .publish
      · rw [waitingTask_of (by simp [Task.waits,publish,fresh]),publishes_publish publish]
        rfl
      · rw [waitingTask_of_not (by simp [Task.waits,publish]),publishes_other publish]
        rfl
    have popped : Ordered started pushed layer (some task) queue := by
      refine ⟨?_,fun each member => ordered.fresh each (List.mem_cons_of_mem task member),fun _ none => ?_,?_,
        ordered.known,ordered.nodup⟩
      · rw [head]
        exact ordered.order
      · exact absurd none (Option.some_ne_none task)
      · rintro opening _ ⟨⟩
        exact connecting opening
    apply popped.resume order
    · intro opening result same
      rw [scenario result same]
      exact connecting opening
    · intro opening _
      exact (publishes_tail_le task queue).trans (ordered.single (perform_opening opening) rfl)

/-- A task that is not a publish joins the queue. -/
theorem Ordered.enqueue (ordered : Ordered started pushed layer current queue) (scenario : task.scenario ≠ .publish)
    (fresh : task.cs = .start) : Ordered started pushed layer current (Logic.enqueue task queue) := by
  have same : publishes (Logic.enqueue task queue) = publishes queue := by
    unfold Logic.enqueue
    split
    · rw [publishes_append,publishes_other scenario]
      exact List.append_nil _
    · exact publishes_other scenario queue
  refine ⟨?_,?_,?_,ordered.connecting,ordered.known,ordered.nodup⟩
  · rw [same]
    exact ordered.order
  · intro each member
    unfold Logic.enqueue at member
    split at member
    · rcases List.mem_append.mp member with member | member
      · exact ordered.fresh each member
      · rw [List.mem_singleton.mp member]
        exact fresh
    · rcases List.mem_cons.mp member with rfl | member
      · exact fresh
      · exact ordered.fresh each member
  · rw [same]
    exact ordered.single

theorem Ordered.publish (ordered : Ordered started pushed layer current queue) {addr : Nat}
    (scenario : task.scenario = .publish) (normal : task.priority = .normal) (fresh : task.cs = .start)
    (own : task.addr = addr) (known : ∀ other ∈ pushed, other < addr) (next : addr < layer.nextAddr)
    (first : layer.connection.connectionState = .opening → current = none → publishes queue = []) :
    Ordered started (pushed ++ [addr]) layer current (Logic.enqueue task queue) := by
  have back : Logic.enqueue task queue = queue ++ [task] := by
    unfold Logic.enqueue
    rw [normal]
  have same : publishes (Logic.enqueue task queue) = publishes queue ++ [addr] := by
    rw [back,publishes_append,publishes_publish scenario,own]
    rfl
  refine ⟨?_,?_,?_,ordered.connecting,?_,?_⟩
  · rw [same,← List.append_assoc (waitingTask current),← List.append_assoc layer.executed,ordered.order,
      List.append_assoc]
  · rw [back]
    intro each member
    rcases List.mem_append.mp member with member | member
    · exact ordered.fresh each member
    · rw [List.mem_singleton.mp member]
      exact fresh
  · intro opening none
    rw [same,first opening none]
    exact le_rfl
  · intro other member
    rcases List.mem_append.mp member with member | member
    · exact ordered.known other member
    · rw [List.mem_singleton.mp member]
      exact next
  · refine List.nodup_append.mpr ⟨ordered.nodup,List.nodup_cons.mpr ⟨List.not_mem_nil,List.nodup_nil⟩,?_⟩
    intro other member single same
    rw [List.mem_singleton.mp same]
    exact (known other member).ne

/-- The message and the time event of the current task do not count. -/
theorem Ordered.retask {changed : Task} (ordered : Ordered started pushed layer (some task) queue)
    (scenario : changed.scenario = task.scenario) (cs : changed.cs = task.cs) (addr : changed.addr = task.addr) :
    Ordered started pushed layer (some changed) queue := by
  have same : waitingTask (some changed) = waitingTask (some task) := by
    have waits : changed.waits = task.waits := by rw [Task.waits,Task.waits,scenario,cs]
    cases known : task.waits with
    | true => rw [waitingTask_of known,waitingTask_of (waits.trans known),addr]
    | false => rw [waitingTask_of_not known,waitingTask_of_not (waits.trans known)]
  refine ⟨by rw [same]; exact ordered.order,ordered.fresh,?_,?_,ordered.known,ordered.nodup⟩
  · intro _ none
    exact absurd none (Option.some_ne_none _)
  · rintro opening _ ⟨⟩
    exact scenario.trans (ordered.connecting opening task rfl)

theorem not_opening_of_opened {effects : List Effect} (opened : .opened ∈ effects) :
    (layer.perform effects).connection.connectionState ≠ .opening := by
  obtain ⟨first,rest,rfl⟩ := List.append_of_mem opened
  intro opening
  rw [LogicLayer.perform_append,LogicLayer.perform_cons] at opening
  exact ConnectionState.noConfusion (perform_opening opening)

/-- What the CONNECT waits for leaves it waiting, or opens the connection. -/
theorem connect_expected {state : XiState} {msg : Option Message} (connect : task.scenario = .connect)
    (expected : task.cs = .sent ∧ state = .written ∨
      ∃ reply, msg = some reply ∧ task.cs = .reply ∧ reply.common.type = .connack ∧ reply.connack.returnCode = 0)
    (ended : (layer.executeQ0 task state msg).task = none) : .opened ∈ (layer.executeQ0 task state msg).effects := by
  unfold LogicLayer.executeQ0 at *
  rw [connect] at *
  simp only at *
  unfold doMqttConnect connectReply at *
  split at ended
  · exact absurd ended (Option.some_ne_none _)
  rename_i works
  rw [if_neg works]
  rcases expected with ⟨cs,rfl⟩ | ⟨reply,rfl,cs,type,code⟩
  · simp only [cs,if_true] at ended
    exact absurd ended (Option.some_ne_none _)
  · simp only [cs,type,code,if_true]
    simp

/-- The current task is resumed. While the connection opens, one publish at most waits behind a CONNECT that
ends without a connection. -/
theorem resumeQ0_ordered {state : XiState} {msg : Option Message}
    (ordered : Ordered started pushed layer (some task) layer.q0TasksQueue)
    (last : layer.connection.connectionState = .opening →
      (task.cs = .sent ∧ state = .written ∨
        ∃ reply, msg = some reply ∧ task.cs = .reply ∧ reply.common.type = .connack ∧ reply.connack.returnCode = 0) ∨
      (publishes layer.q0TasksQueue).length ≤ 1) :
    HoldsQ0 (Ordered started pushed) (layer.resumeQ0 task state msg) := by
  have order := executeQ0_order layer task state msg
  have scenario := (executeQ0_command layer task state msg).scenario
  apply finishQ0_holds (stable_ordered started pushed)
  apply ordered.resume order
  · intro opening result same
    rw [scenario result same]
    exact ordered.connecting opening task rfl
  · intro opening ended
    have before := perform_opening opening
    rcases last before with expected | single
    · have opened := connect_expected (ordered.connecting before task rfl) expected ended
      exact absurd opening (not_opening_of_opened opened)
    · exact single

theorem ordered_step {state : Publishing} {event : Event}
    (ordered : HoldsQ0 (Ordered started state.pushed) state.layer)
    (keeps : state.layer.fault = false → keepsOrder state.layer event) :
    HoldsQ0 (Ordered started (state.step event).pushed) (state.step event).layer := by
  unfold Publishing.step
  split
  · exact ordered
  rename_i running
  replace keeps := keeps (eq_false_of_ne_true running)
  have move := step_cases {} (eq_false_of_ne_true running) event
  simp only
  generalize Logic.step {} state.layer event = after at move
  have stable := stable_ordered started state.pushed
  -- an event that pushes no publish adds nothing to the ones pushed
  have quiet (other : Publishing.pushedBy state.layer event = [])
      (holds : HoldsQ0 (Ordered started state.pushed) after) :
      HoldsQ0 (Ordered started (state.pushed ++ Publishing.pushedBy state.layer event)) after := by
    rw [other,List.append_nil]
    exact holds
  cases move with
  | aside same past =>
    apply quiet
    · unfold Publishing.pushedBy
      split
      · exact absurd keeps.1 past
      · rfl
    · exact Ordered.holds_undisturbed ordered same
  | queue same works q0 next =>
    rename_i request layer
    have base : Ordered started state.pushed layer layer.currentQ0Task layer.q0TasksQueue := Ordered.holds_undisturbed ordered same
    cases request with
    | publish topic data qos retain callback =>
      cases qos with
      | atMostOnce =>
        apply queueQ0Task_holds (stable_ordered started _)
        change Ordered started (state.pushed ++ [state.layer.nextAddr]) layer _ (Logic.enqueue _ layer.q0TasksQueue)
        refine base.publish rfl rfl rfl rfl ordered.known next fun opening none => ?_
        rw [same.q0TasksQueue]
        exact keeps.2 (same.connection ▸ opening) (same.currentQ0Task ▸ none)
      | atLeastOnce => exact absurd q0 Bool.false_ne_true
      | exactlyOnce => exact absurd q0 Bool.false_ne_true
    | subscribe topic qos handler session => exact absurd q0 Bool.false_ne_true
    | shutdown => exact quiet rfl (queueQ0Task_holds stable (base.enqueue Scenario.noConfusion rfl))
  | confirm same works current =>
    rename_i type written base task
    have base := Ordered.undisturbed ordered same
    rw [current,← same.q0TasksQueue] at base
    apply quiet rfl
    apply resumeQ0_ordered base
    rw [same.connection,same.q0TasksQueue]
    intro opening
    refine (keeps opening task current ⟨rfl,works,by rw [current]; rfl⟩).imp_left fun expected => .inl ⟨expected.1,?_⟩
    rw [expected.2]
    rfl
  | pull works current plain zero =>
    rename_i msg task
    have base := ordered.running current
    apply quiet rfl
    have changed : Ordered started state.pushed state.layer (some {task with msg := some msg}) _ :=
      base.retask rfl rfl rfl
    apply resumeQ0_ordered changed
    · intro opening
      exact (keeps opening task current ⟨plain,zero,works,by rw [current]; rfl⟩).imp_left fun expected =>
        .inr ⟨msg,rfl,expected⟩
  | connectTimeout current pending connect =>
    rename_i task
    have base := ordered.running current
    apply quiet rfl
    apply finishQ0_holds stable
    have command := doMqttConnectTimeout_command state.layer {task with timeout := none} connect
    have changed : Ordered started state.pushed state.layer (some {task with timeout := none}) _ :=
      base.retask rfl rfl rfl
    have other : task.scenario ≠ .publish := by
      rw [connect]
      exact Scenario.noConfusion
    apply changed.resume (command.order _ other)
    · intro _ result same
      exact (command.scenario result same).trans connect
    · intro opening _
      exact (keeps (perform_opening opening) task current ⟨task,current,rfl,pending⟩).resolve_left id
  | timeout current pending other =>
    rename_i task
    have base := ordered.running current
    apply quiet rfl
    have changed : Ordered started state.pushed state.layer (some {task with timeout := none}) _ :=
      base.retask rfl rfl rfl
    apply resumeQ0_ordered changed
    · intro opening
      exact .inr ((keeps opening task current ⟨task,current,rfl,pending⟩).resolve_left id)
  | keepalive scheduled works same =>
    have dropped : Ordered started state.pushed {state.layer with keepaliveEvent := false} _ _ :=
      Ordered.beside ordered rfl id le_rfl
    have base := dropped.undisturbed same
    rw [← same.currentQ0Task,← same.q0TasksQueue] at base
    exact quiet rfl (queueQ0Task_holds stable (base.enqueue Scenario.noConfusion rfl))
  | keepaliveLost scheduled closed same =>
    have dropped : Ordered started state.pushed {state.layer with keepaliveEvent := false} _ _ :=
      Ordered.beside ordered rfl id le_rfl
    have after := dropped.undisturbed same
    rw [← same.currentQ0Task,← same.q0TasksQueue] at after
    exact quiet rfl after
  | connect same works =>
    have base := Ordered.undisturbed ordered same
    rw [← same.currentQ0Task,← same.q0TasksQueue] at base
    exact quiet rfl (queueQ0Task_holds stable (base.enqueue Scenario.noConfusion rfl))
  | connectFailed failed => exact quiet rfl (Ordered.holds_perform ordered rfl)
  | terminal works => exact quiet rfl (Ordered.holds_perform ordered rfl)
  | init connection => exact absurd keeps id
  | close closing =>
    apply quiet rfl
    unfold LogicLayer.close
    split
    · exact Ordered.holds_perform ordered rfl
    · exact Ordered.holds_perform ordered rfl
  | closeExternally closing => exact absurd keeps id
  | setConnectionState next =>
    exact quiet rfl (Ordered.beside ordered rfl (fun opening => absurd opening keeps) le_rfl)

/-- In every state of a connection the publishes that were executed, then those that wait, are the ones that
were pushed, in the order in which they were pushed. -/
theorem publishes_in_order {layer : LogicLayer} (idle : layer.currentQ0Task = none) (empty : layer.q0TasksQueue = [])
    (events : List Event) (keeps : Runs.Admissible Publishing.step
      (fun state event => state.layer.fault = false → keepsOrder state.layer event) {layer := layer} events) :
    Runs.Always Publishing.step (fun state =>
      state.layer.executed ++ state.layer.waiting = layer.executed ++ state.pushed ∧ state.pushed.Nodup)
      {layer := layer} events := by
  have start : HoldsQ0 (Ordered layer.executed []) layer := by
    unfold HoldsQ0
    rw [idle,empty]
    refine ⟨rfl,?_,fun _ _ => Nat.zero_le 1,?_,?_,List.nodup_nil⟩
    · intro task member
      exact absurd member List.not_mem_nil
    · intro _ task same
      exact absurd same.symm (Option.some_ne_none task)
    · intro addr member
      exact absurd member List.not_mem_nil
  have always := Runs.always_of_step (I := fun state : Publishing => HoldsQ0 (Ordered layer.executed state.pushed) state.layer)
    (fun state event ordered keeps => ordered_step ordered keeps) start keeps
  exact always.mono fun state ordered => ⟨ordered.order,ordered.nodup⟩

def publishRequest : Request := .publish [] (.ofBytes .managed []) .atMostOnce 0 none

def handshake : List Event := [.connect .ok,.confirm 0 .connect true,.pull acceptingConnack]

theorem publishes_in_order_pushed_while_connecting :
    Runs.Always Publishing.step (fun state =>
      state.layer.executed ++ state.layer.waiting = (openingLayer {}).executed ++ state.pushed ∧ state.pushed.Nodup)
      {layer := openingLayer {}} ([.connect .ok,.push publishRequest,.push publishRequest] ++ handshake.drop 1) :=
  publishes_in_order rfl rfl _ (by
    have cs (events : List Event) (cs : Cs)
        (known : (Runs.final Publishing.step {layer := openingLayer {}} events).layer.currentQ0Task.all (·.cs = cs) = true)
        (task : Task)
        (same : (Runs.final Publishing.step {layer := openingLayer {}} events).layer.currentQ0Task = some task) :
        task.cs = cs := by
      rw [same] at known
      exact of_decide_eq_true known
    refine ⟨fun _ _ task same => absurd same.symm (Option.some_ne_none task),fun _ => ⟨by decide +kernel,?_⟩,
      fun _ => ⟨by decide +kernel,?_⟩,?_,?_,trivial⟩
    · intro _ none
      exact absurd none (by decide +kernel)
    · intro _ none
      exact absurd none (by decide +kernel)
    · intro _ _ task same _
      exact .inl ⟨cs [.connect .ok,.push publishRequest,.push publishRequest] .sent (by decide +kernel) task same,rfl⟩
    · intro _ _ task same _
      exact .inl ⟨cs [.connect .ok,.push publishRequest,.push publishRequest,.confirm 0 .connect true] .reply
        (by decide +kernel) task same,by decide +kernel,by decide +kernel⟩)

/-- Two publishes that are pushed before the CONNECT: the second is put in front of the first. -/
theorem publishes_reordered :
    let final := Runs.final Publishing.step {layer := openingLayer {}}
      ([.push publishRequest,.push publishRequest] ++ handshake ++ [.confirm 0 .publish true])
    final.layer.executed = [1,0] ∧ final.pushed = [0,1] := by
  decide +kernel

end Order

end XivelyClient.Mqtt.Logic
