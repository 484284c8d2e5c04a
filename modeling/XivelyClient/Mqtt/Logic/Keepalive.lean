import XivelyClient.Mqtt.Logic.QueueQ0

/-! The keepalive of an open connection: its event or its task, never both, and never neither. -/
namespace XivelyClient.Mqtt.Logic

/-- The QoS 0 tasks of a scenario. -/
def inHand (scenario : Scenario) (current : Option Task) (queue : List Task) : Nat :=
  (current.toList ++ queue).countP (·.scenario = scenario)

/-- The keepalive event and the keepalive tasks. -/
def pulses (layer : LogicLayer) (current : Option Task) (queue : List Task) : Nat :=
  layer.keepaliveEvent.toNat + inHand .keepalive current queue

/-- While the connection is open and has a keepalive, the event is scheduled or a task is there, which has
its timeout as soon as it waits for the answer, or closing has begun. There is never more than one of them. -/
structure LogicLayer.KeptAlive (layer : LogicLayer) : Prop where
  beats : layer.connection.connectionState = .opened → 0 < layer.connection.keepaliveTimeout →
    layer.keepaliveEvent = true ∨
      (∃ task, layer.currentQ0Task = some task ∧ task.scenario = .keepalive ∧
        (task.cs = .reply → task.timeout.isSome = true)) ∨
      (∃ task ∈ layer.q0TasksQueue, task.scenario = .keepalive) ∨ ¬ layer.working
  single : pulses layer layer.currentQ0Task layer.q0TasksQueue ≤ 1

/-- The calls that come in their order: one init for each connection, one connect after it while the layer still
connects, and nobody but the CONNECT task opens the connection. -/
def Event.sequenced (layer : LogicLayer) : Event → Prop
  | .init _ => layer.hasData = false
  | .connect state => state = .ok →
    layer.layerState = .connecting ∧ inHand .connect layer.currentQ0Task layer.q0TasksQueue = 0
  | .setConnectionState state => state ≠ .opened
  | _ => True

/-- The keepalive task of an open connection waits for its answer. -/
def LogicLayer.awaitsPingresp (layer : LogicLayer) : Prop :=
  layer.working ∧ layer.connection.connectionState = .opened ∧
    ∃ task ∈ layer.currentQ0Task, task.scenario = .keepalive ∧ task.cs = .reply

/-- No confirmation, and no message but PINGRESP, goes to the current task. -/
def Event.answersPing : Event → Prop
  | .confirm msgId _ _ => msgId ≠ 0
  | .pull msg => getMessageId msg = 0 → msg.common.type ≠ .publish → msg.common.type = .pingresp
  | _ => True

instance (layer : LogicLayer) : Decidable layer.awaitsPingresp :=
  inferInstanceAs (Decidable (_ ∧ _ ∧ ∃ task ∈ layer.currentQ0Task, task.scenario = .keepalive ∧ task.cs = .reply))

instance (layer : LogicLayer) (event : Event) : Decidable (event.sequenced layer) :=
  match event with
  | .init _ => inferInstanceAs (Decidable (layer.hasData = false))
  | .connect state => inferInstanceAs (Decidable (state = .ok → _ ∧ _ = 0))
  | .setConnectionState state => inferInstanceAs (Decidable (state ≠ .opened))
  | .push _ | .confirm _ _ _ | .pull _ | .pullFailed _ | .taskTimeout _ | .orphanTimeout _ | .keepaliveOnce
  | .postConnect | .close _ | .closeExternally _ | .subscriptionCall => isTrue trivial

instance (event : Event) : Decidable event.answersPing :=
  match event with
  | .confirm msgId _ _ => inferInstanceAs (Decidable (msgId ≠ 0))
  | .pull msg => inferInstanceAs (Decidable (getMessageId msg = 0 → msg.common.type ≠ .publish → _ = _))
  | .init _ | .connect _ | .setConnectionState _ | .push _ | .pullFailed _ | .taskTimeout _ | .orphanTimeout _
  | .keepaliveOnce | .postConnect | .close _ | .closeExternally _ | .subscriptionCall => isTrue trivial

section Count

variable {scenario : Scenario} {current : Option Task} {task : Task} {queue : List Task}

theorem inHand_some : inHand scenario (some task) queue =
    inHand scenario none queue + if task.scenario = scenario then 1 else 0 := by
  simp [inHand,List.countP_cons]

theorem inHand_other (other : task.scenario ≠ scenario) :
    inHand scenario (some task) queue = inHand scenario none queue := by
  rw [inHand_some,if_neg other]
  rfl

theorem inHand_own (own : task.scenario = scenario) :
    inHand scenario (some task) queue = inHand scenario none queue + 1 := by
  rw [inHand_some,if_pos own]

theorem inHand_rotate : inHand scenario none (queue ++ [task]) = inHand scenario none (task :: queue) := by
  simp [inHand,List.countP_append,List.countP_cons]

theorem inHand_enqueue : inHand scenario current (enqueue task queue) =
    inHand scenario current queue + if task.scenario = scenario then 1 else 0 := by
  unfold inHand enqueue
  split <;> simp [List.countP_append,List.countP_cons] <;> omega

theorem inHand_pos : 0 < inHand scenario current queue ↔
    (∃ task, current = some task ∧ task.scenario = scenario) ∨ ∃ task ∈ queue, task.scenario = scenario := by
  unfold inHand
  rw [List.countP_pos_iff]
  constructor
  · rintro ⟨task,member,own⟩
    rcases List.mem_append.mp member with member | member
    · exact .inl ⟨task,Option.mem_toList.mp member,of_decide_eq_true own⟩
    · exact .inr ⟨task,member,of_decide_eq_true own⟩
  · rintro (⟨task,same,own⟩ | ⟨task,member,own⟩)
    · exact ⟨task,List.mem_append_left _ (Option.mem_toList.mpr same),decide_eq_true own⟩
    · exact ⟨task,List.mem_append_right _ member,decide_eq_true own⟩

end Count

section Calm

variable {layer between after : LogicLayer}

/-- Nothing but a step towards the end of the connection. -/
structure Calm (before after : LogicLayer) : Prop where
  keepaliveEvent : after.keepaliveEvent = before.keepaliveEvent
  connection : after.connection = before.connection
  hasData : after.hasData = before.hasData
  layerState : after.working → after.layerState = before.layerState

namespace Calm

theorem working (calm : Calm layer after) (works : after.working) : layer.working := by
  obtain ⟨operational,data⟩ := works
  refine ⟨?_,calm.hasData ▸ data⟩
  rw [LogicLayer.notOperational,← calm.layerState ⟨operational,data⟩]
  exact operational

theorem trans (first : Calm layer between) (second : Calm between after) : Calm layer after :=
  ⟨second.keepaliveEvent.trans first.keepaliveEvent,second.connection.trans first.connection,
    second.hasData.trans first.hasData,
    fun works => (second.layerState works).trans (first.layerState (second.working works))⟩

theorem undisturbed (same : Undisturbed layer after) : Calm layer after :=
  ⟨same.keepaliveEvent,same.connection,same.hasData,fun _ => same.layerState⟩

/-- A close, or the close of a layer below. -/
theorem close (state : XiState) (event : after.keepaliveEvent = layer.keepaliveEvent)
    (connection : after.connection = layer.connection) (data : after.hasData = layer.hasData)
    (moved : after.layerState = .getNextLayerState .close layer.layerState state ∨ after.layerState = .closed) :
    Calm layer after := by
  refine ⟨event,connection,data,fun works => ?_⟩
  have operational : after.layerState.notOperational = false := works.1
  rcases moved with moved | moved
  · rw [moved] at operational ⊢
    change (if layer.layerState = .connected then LayerState.closing else layer.layerState) = layer.layerState
    split
    · rename_i connected
      rw [connected] at operational
      exact absurd operational Bool.noConfusion
    · rfl
  · rw [moved] at operational
    exact absurd operational Bool.noConfusion

/-- The effects that no CONNECT and no keepalive task has. -/
theorem perform {effects : List Effect} {scenario : Scenario}
    (belong : effects.all (Effect.belongs scenario) = true) (connect : scenario ≠ .connect)
    (keepalive : scenario ≠ .keepalive) : Calm layer (layer.perform effects) := by
  induction effects generalizing layer with
  | nil => exact ⟨rfl,rfl,rfl,fun _ => rfl⟩
  | cons effect effects ih =>
    rw [List.all_cons,Bool.and_eq_true] at belong
    rw [LogicLayer.perform_cons]
    refine .trans ?_ (ih belong.2)
    have own := belong.1
    cases effect with
    | connectNext state => exact absurd (of_decide_eq_true own) connect
    | opened => exact absurd (of_decide_eq_true own) connect
    | scheduleKeepalive => simp [Effect.belongs,connect,keepalive] at own
    | closePrev state => exact .close state rfl rfl rfl (.inl rfl)
    | connectThis | initPrev | closeThis | closeExternallyThis | closeExternallyNext =>
      exact absurd own Bool.false_ne_true
    | _ => exact ⟨rfl,rfl,rfl,fun _ => rfl⟩

theorem quiet {effects : List Effect} (quiet : effects.all Effect.quiet = true) : Calm layer (layer.perform effects) :=
  .undisturbed (.perform quiet)

theorem failIf (fault : Bool) : Calm layer (layer.failIf fault) := ⟨rfl,rfl,rfl,fun _ => rfl⟩

end Calm

end Calm

section Alive

variable {layer after : LogicLayer} {current : Option Task} {task changed : Task} {queue : List Task}

/-- At most one CONNECT task, keepalive task or keepalive event; exactly one while the connection is open and has a
keepalive. -/
structure Alive (layer : LogicLayer) (current : Option Task) (queue : List Task) : Prop where
  single : inHand .connect current queue + pulses layer current queue ≤ 1
  opened : layer.connection.connectionState = .opened → inHand .connect current queue = 0
  connected : layer.working → layer.connection.connectionState = .opened ∨ 0 < pulses layer current queue →
    layer.layerState = .connected
  beats : layer.working → layer.connection.connectionState = .opened → 0 < layer.connection.keepaliveTimeout →
    0 < pulses layer current queue
  fresh : ∀ task ∈ queue, task.cs = .start
  data : layer.hasData = false → current = none ∧ queue = [] ∧ layer.keepaliveEvent = false

/-- A keepalive task that runs waits for the confirmation of its message, or for the answer with its timeout. -/
def Waits (layer : LogicLayer) (current : Option Task) : Prop :=
  ∀ task, current = some task → task.scenario = .keepalive → layer.working →
    task.cs = .sent ∨ (task.cs = .reply ∧ task.timeout.isSome = true)

theorem pulses_calm (calm : Calm layer after) : pulses after current queue = pulses layer current queue := by
  rw [pulses,calm.keepaliveEvent,pulses]

theorem Alive.calm (alive : Alive layer current queue) (calm : Calm layer after) : Alive after current queue where
  single := by
    rw [pulses_calm calm]
    exact alive.single
  opened := by
    rw [calm.connection]
    exact alive.opened
  connected := by
    intro works open_
    rw [pulses_calm calm,calm.connection] at open_
    rw [calm.layerState works]
    exact alive.connected (calm.working works) open_
  beats := by
    intro works
    rw [pulses_calm calm,calm.connection]
    exact alive.beats (calm.working works)
  fresh := alive.fresh
  data := by
    rw [calm.hasData,calm.keepaliveEvent]
    exact alive.data

/-- Another task in the hand of the layer, of the same scenario. -/
theorem Alive.retask (alive : Alive layer (some task) queue) (scenario : changed.scenario = task.scenario) :
    Alive layer (some changed) queue := by
  have same (other : Scenario) : inHand other (some changed) queue = inHand other (some task) queue := by
    rw [inHand_some,scenario,← inHand_some]
  have pulse : pulses layer (some changed) queue = pulses layer (some task) queue := by
    rw [pulses,same,pulses]
  refine ⟨?_,?_,?_,?_,alive.fresh,fun none => absurd (alive.data none).1 (Option.some_ne_none _)⟩
  · rw [same,pulse]
    exact alive.single
  · rw [same]
    exact alive.opened
  · rw [pulse]
    exact alive.connected
  · rw [pulse]
    exact alive.beats

/-- The task in the hand of the layer ends; a keepalive task only when nothing depends on it any more. -/
theorem Alive.drop (alive : Alive layer (some task) queue)
    (spare : task.scenario = .keepalive → layer.working → layer.connection.connectionState ≠ .opened) :
    Alive layer none queue := by
  have fewer (scenario : Scenario) : inHand scenario none queue ≤ inHand scenario (some task) queue := by
    rw [inHand_some]
    exact Nat.le_add_right ..
  have single := alive.single
  have connects := fewer .connect
  have keepalives := fewer .keepalive
  unfold pulses at single
  refine ⟨?_,?_,?_,?_,alive.fresh,fun none => absurd (alive.data none).1 (Option.some_ne_none _)⟩
  · unfold pulses
    omega
  · intro opened
    exact Nat.le_zero.mp (connects.trans_eq (alive.opened opened))
  · rintro works (opened | pulse)
    · exact alive.connected works (.inl opened)
    · refine alive.connected works (.inr (pulse.trans_le ?_))
      unfold pulses
      omega
  · intro works opened timeout
    have other : task.scenario ≠ .keepalive := fun own => spare own works opened
    have beats := alive.beats works opened timeout
    unfold pulses at beats ⊢
    rw [inHand_other other] at beats
    exact beats

/-- A layer that works behind a CONNECT notification is connected. -/
theorem told_connected (layer : LogicLayer) (effects : List Effect) (state : XiState)
    (works : (layer.perform (effects ++ [.connectNext state])).working) :
    (layer.perform (effects ++ [.connectNext state])).layerState = .connected := by
  rw [LogicLayer.perform_append] at works ⊢
  have operational : (if state = .ok then LayerState.connected else .closed).notOperational = false := works.1
  change (if state = .ok then LayerState.connected else .closed) = .connected
  split at operational
  · rename_i ok
    rw [if_pos ok]
  · exact absurd operational Bool.noConfusion

/-- The layer above is told of a connection that is not open. -/
theorem Alive.told (alive : Alive layer none queue) (closed : layer.connection.connectionState ≠ .opened)
    (state : XiState) : Alive (layer.perform [.connectNext state]) none queue where
  single := alive.single
  opened := alive.opened
  connected := fun works _ => told_connected layer [] state works
  beats := fun _ opened => absurd opened closed
  fresh := alive.fresh
  data := alive.data

/-- The CONNECT task of a connection that is accepted starts the keepalive. -/
theorem Alive.accepted (alive : Alive layer (some task) queue) (connect : task.scenario = .connect) (state : XiState) :
    Alive (layer.perform ((if 0 < layer.connection.keepaliveTimeout then [.scheduleKeepalive] else []) ++
      [.opened,.connectNext state])) none queue := by
  have single := alive.single
  have quiet : inHand .connect none queue = 0 ∧ layer.keepaliveEvent.toNat = 0 ∧ inHand .keepalive none queue = 0 := by
    unfold pulses at single
    rw [inHand_own connect,inHand_other (by rw [connect]; exact Scenario.noConfusion)] at single
    omega
  obtain ⟨connects,event,keepalives⟩ := quiet
  have told := told_connected layer
    ((if 0 < layer.connection.keepaliveTimeout then [.scheduleKeepalive] else []) ++ [.opened]) state
  rw [List.append_assoc] at told
  refine ⟨?_,fun _ => connects,fun works _ => told works,?_,alive.fresh,?_⟩
  · unfold pulses
    rw [connects,keepalives]
    have := Bool.toNat_le (layer.perform ((if 0 < layer.connection.keepaliveTimeout then [.scheduleKeepalive] else []) ++
      [.opened,.connectNext state])).keepaliveEvent
    omega
  · intro _ _ timeout
    have timeout : 0 < layer.connection.keepaliveTimeout := by
      have same := congrArg ConnectionRequest.keepaliveTimeout (@LogicLayer.perform_request layer
        ((if 0 < layer.connection.keepaliveTimeout then [.scheduleKeepalive] else []) ++ [.opened,.connectNext state]))
      rw [same] at timeout
      exact timeout
    rw [if_pos timeout]
    exact Nat.lt_of_lt_of_le Nat.zero_lt_one (Nat.le_add_right 1 _)
  · intro none
    rw [LogicLayer.perform_hasData] at none
    exact absurd (alive.data none).1 (Option.some_ne_none _)

section Commands

variable {state : XiState} {msg : Option Message} {effects : List Effect} {fault : Bool}

/-- What the task in the hand of the layer leaves behind. -/
def Aliveness (layer : LogicLayer) (outcome : Outcome) (queue : List Task) : Prop :=
  Alive ((layer.perform outcome.effects).failIf outcome.fault) outcome.task queue ∧
    Waits ((layer.perform outcome.effects).failIf outcome.fault) outcome.task

theorem Alive.stays (alive : Alive layer (some task) queue) (calm : Calm layer (layer.perform effects))
    (scenario : changed.scenario = task.scenario)
    (waits : changed.scenario = .keepalive → (layer.perform effects).working →
      changed.cs = .sent ∨ (changed.cs = .reply ∧ changed.timeout.isSome = true)) :
    Aliveness layer {task := some changed,effects := effects,fault := fault} queue := by
  refine ⟨(alive.retask scenario).calm (calm.trans (.failIf fault)),?_⟩
  rintro _ ⟨⟩ own works
  exact waits own works

theorem Alive.ends (alive : Alive (layer.perform effects) none queue) :
    Aliveness layer {task := none,effects := effects,fault := fault} queue :=
  ⟨alive.calm (.failIf fault),fun _ none => absurd none.symm (Option.some_ne_none _)⟩

/-- A CONNECT task ends before anybody is told. -/
theorem Alive.dropConnect (alive : Alive layer (some task) queue) (connect : task.scenario = .connect) :
    Alive layer none queue ∧ layer.connection.connectionState ≠ .opened := by
  refine ⟨alive.drop fun own => absurd (connect.symm.trans own) Scenario.noConfusion,fun opened => ?_⟩
  have none := alive.opened opened
  rw [inHand_own connect] at none
  exact absurd none (Nat.succ_ne_zero _)

theorem Alive.connect (alive : Alive layer (some task) queue) (connect : task.scenario = .connect) :
    Aliveness layer (doMqttConnect layer task state msg) queue := by
  have other : task.scenario ≠ .keepalive := by rw [connect]; exact Scenario.noConfusion
  obtain ⟨dropped,closed⟩ := alive.dropConnect connect
  have drops {effects : List Effect} (quiet : effects.all Effect.quiet = true) {fault : Bool} :
      Aliveness layer {task := none,effects := effects,fault := fault} queue := (dropped.calm (.quiet quiet)).ends
  have keeps {changed : Task} {effects : List Effect} (quiet : effects.all Effect.quiet = true)
      (scenario : changed.scenario = task.scenario) {fault : Bool} :
      Aliveness layer {task := some changed,effects := effects,fault := fault} queue :=
    alive.stays (.quiet quiet) scenario fun own => absurd (scenario.symm.trans own) other
  unfold doMqttConnect connectReply
  split
  · refine keeps (freeMessage_quiet msg) ?_
    rfl
  split
  iterate 2
    split
    · exact drops (free_quiet task)
    · refine keeps ?_ ?_ <;> rfl
  · split
    · refine keeps ?_ ?_ <;> rfl
    · apply Alive.ends
      rw [LogicLayer.perform_append,LogicLayer.perform_append]
      exact ((dropped.told closed state).calm (.quiet (freeMessage_quiet msg))).calm (.quiet (free_quiet task))
  · split
    · refine keeps ?_ ?_ <;> rfl
    split
    · split
      · rename_i answer _ _
        have freed : Alive (layer.perform [.freeMessage answer]) (some task) queue := alive.calm (.quiet rfl)
        apply Alive.ends
        rw [LogicLayer.perform_append,List.append_assoc,LogicLayer.perform_append]
        exact (freed.accepted connect _).calm (.quiet (free_quiet task))
      · rename_i answer _ _
        apply Alive.ends
        have rest : (Effect.freeMessage answer :: task.free).all Effect.quiet = true := free_quiet task
        exact (dropped.told closed _).calm (.quiet rest)
    · exact drops (by simp [Effect.quiet])

/-- The keepalive task of an open connection leaves the event behind. -/
theorem Alive.reschedule (alive : Alive layer (some task) queue) (keepalive : task.scenario = .keepalive)
    (opened : layer.connection.connectionState = .opened) : Alive (layer.perform [.scheduleKeepalive]) none queue := by
  have single := alive.single
  unfold pulses at single
  rw [inHand_other (by rw [keepalive]; exact Scenario.noConfusion),inHand_own keepalive] at single
  have connects : inHand .connect none queue = 0 := by omega
  have keepalives : inHand .keepalive none queue = 0 := by omega
  refine ⟨?_,fun _ => connects,fun works _ => alive.connected works (.inl opened),fun _ _ _ => Nat.lt_add_right _ Nat.zero_lt_one,
    alive.fresh,fun none => absurd (alive.data none).1 (Option.some_ne_none _)⟩
  unfold pulses
  rw [connects,keepalives]
  exact Nat.le_refl 1

/-- The layer works no more when the answer to a keepalive has failed to come. -/
theorem Alive.closing (alive : Alive layer (some task) queue) (keepalive : task.scenario = .keepalive) :
    ¬ (layer.perform [.closePrev .timeout]).working := by
  intro works
  have calm : Calm layer (layer.perform [.closePrev .timeout]) := .close .timeout rfl rfl rfl (.inl rfl)
  have pulse : 0 < pulses layer (some task) queue := by
    unfold pulses
    rw [inHand_own keepalive]
    omega
  have connected := alive.connected (calm.working works) (.inr pulse)
  have operational : (LayerState.getNextLayerState .close layer.layerState .timeout).notOperational = false := works.1
  rw [connected] at operational
  exact absurd operational Bool.noConfusion

theorem Alive.keepalive (alive : Alive layer (some task) queue) (keepalive : task.scenario = .keepalive)
    (due : layer.working → task.cs = .reply → (state = .timeout → task.timeout = none) ∧ (state = .ok → msg.isSome) ∧
      (layer.connection.connectionState = .opened → state = .timeout ∨
        ∃ answer, state = .ok ∧ msg = some answer ∧ answer.common.type = .pingresp)) :
    Aliveness layer (doMqttKeepaliveTask layer task state msg) queue := by
  have data : layer.hasData = true := by
    by_contra none
    exact absurd (alive.data (eq_false_of_ne_true none)).1 (Option.some_ne_none task)
  have keeps {changed : Task} {effects : List Effect} (quiet : effects.all Effect.quiet = true)
      (scenario : changed.scenario = task.scenario)
      (waits : layer.working → changed.cs = .sent ∨ (changed.cs = .reply ∧ changed.timeout.isSome = true))
      {fault : Bool} : Aliveness layer {task := some changed,effects := effects,fault := fault} queue :=
    alive.stays (.quiet quiet) scenario fun _ works => waits ((Calm.quiet quiet).working works)
  unfold doMqttKeepaliveTask
  rw [data]
  simp only [Bool.not_true,Bool.false_eq_true,if_false]
  split
  iterate 2
    refine keeps ?_ ?_ fun _ => .inl ?_ <;> rfl
  · rename_i sent
    split
    · exact keeps rfl rfl fun _ => .inl sent
    · refine keeps ?_ ?_ fun _ => .inr ⟨?_,?_⟩ <;> rfl
  · rename_i reply
    split
    · rename_i timeout
      split
      · rename_i pending
        refine keeps rfl rfl fun works => ?_
        rw [(due works reply).1 timeout] at pending
        exact absurd pending Bool.false_ne_true
      · refine alive.stays (.close .timeout rfl rfl rfl (.inl rfl)) ?_ fun _ works => ?_
        · rfl
        · exact absurd works (alive.closing keepalive)
    rename_i early
    split
    · rename_i failed
      refine ((alive.drop fun _ works opened => ?_).calm (.quiet (free_quiet task))).ends
      rcases (due works reply).2.2 opened with timeout | ⟨_,ok,_⟩
      · exact early timeout
      · exact failed ok
    rename_i ok
    split
    · refine keeps rfl rfl fun works => ?_
      exact absurd ((due works reply).2.1 (not_not.mp ok)) Bool.false_ne_true
    rename_i answer
    split
    · split
      · rename_i opened
        apply Alive.ends
        rw [List.append_assoc,LogicLayer.perform_append]
        exact (alive.reschedule keepalive opened).calm (.quiet (free_quiet task))
      · rename_i closed
        refine ((alive.drop fun _ _ opened => closed opened).calm (.quiet (?_))).ends
        exact free_quiet task
    · rename_i wrong
      refine ((alive.drop fun _ works opened => ?_).calm (.quiet ?_)).ends
      · rcases (due works reply).2.2 opened with timeout | ⟨_,_,same,pingresp⟩
        · exact early timeout
        · cases same
          exact wrong pingresp
      · exact free_quiet task

theorem Alive.other (alive : Alive layer (some task) queue) (connect : task.scenario ≠ .connect)
    (keepalive : task.scenario ≠ .keepalive) : Aliveness layer (layer.executeQ0 task state msg) queue := by
  have command := executeQ0_command layer task state msg
  have calm : Calm layer ((layer.perform (layer.executeQ0 task state msg).effects).failIf
      (layer.executeQ0 task state msg).fault) :=
    .trans (.perform command.effects connect keepalive) (.failIf _)
  unfold Aliveness
  cases same : (layer.executeQ0 task state msg).task with
  | none =>
    refine ⟨(alive.drop fun own => absurd own keepalive).calm calm,?_⟩
    exact fun _ none => absurd none.symm (Option.some_ne_none _)
  | some result =>
    have scenario := command.scenario result same
    refine ⟨(alive.retask scenario).calm calm,?_⟩
    rintro _ ⟨⟩ own
    exact absurd (scenario.symm.trans own) keepalive

theorem Alive.connectTimeout (alive : Alive layer (some task) queue) (connect : task.scenario = .connect) :
    Aliveness layer (doMqttConnectTimeout layer task) queue := by
  obtain ⟨dropped,closed⟩ := alive.dropConnect connect
  unfold doMqttConnectTimeout
  split
  · apply Alive.ends
    rw [LogicLayer.perform_append]
    exact (dropped.told closed .timeout).calm (.quiet (free_quiet task))
  · refine alive.stays (.quiet ?_) ?_ fun own => absurd (connect.symm.trans own) Scenario.noConfusion <;> rfl

/-- A keepalive task that waits for its answer is resumed by its timeout or by the answer. -/
def Due (layer : LogicLayer) (task : Task) (state : XiState) (msg : Option Message) : Prop :=
  task.scenario = .keepalive → task.cs = .reply →
    (state = .timeout → task.timeout = none) ∧ (state = .ok → msg.isSome) ∧
      (layer.connection.connectionState = .opened → state = .timeout ∨
        ∃ answer, state = .ok ∧ msg = some answer ∧ answer.common.type = .pingresp)

theorem Alive.executeQ0 (alive : Alive layer (some task) queue) (due : Due layer task state msg) :
    Aliveness layer (layer.executeQ0 task state msg) queue := by
  by_cases connect : task.scenario = .connect
  · have command : layer.executeQ0 task state msg = doMqttConnect layer task state msg := by
      unfold LogicLayer.executeQ0
      rw [connect]
    rw [command]
    exact alive.connect connect
  by_cases keepalive : task.scenario = .keepalive
  · have command : layer.executeQ0 task state msg = doMqttKeepaliveTask layer task state msg := by
      unfold LogicLayer.executeQ0
      rw [keepalive]
    rw [command]
    exact alive.keepalive keepalive fun _ => due keepalive
  · exact alive.other connect keepalive

end Commands

end Alive

section Steps

variable {layer after base : LogicLayer} {current : Option Task} {task : Task} {queue : List Task} {event : Event}

/-- What every call keeps. -/
def Beating (layer : LogicLayer) (current : Option Task) (queue : List Task) : Prop :=
  Alive layer current queue ∧ Waits layer current

theorem Beating.calm (beating : Beating layer current queue) (calm : Calm layer after) : Beating after current queue :=
  ⟨beating.1.calm calm,fun task same own works => beating.2 task same own (calm.working works)⟩

theorem stable_beating : StableQ0 Beating where
  blind := fun _ _ _ _ _ beating => beating.calm ⟨rfl,rfl,rfl,fun _ => rfl⟩
  rotate := by
    intro layer task queue beating _ _
    obtain ⟨alive,waits⟩ := beating
    have same : pulses layer none (queue ++ [task]) = pulses layer none (task :: queue) := by
      rw [pulses,inHand_rotate,pulses]
    refine ⟨⟨?_,?_,?_,?_,?_,?_⟩,waits⟩
    · rw [same,inHand_rotate]
      exact alive.single
    · rw [inHand_rotate]
      exact alive.opened
    · rw [same]
      exact alive.connected
    · rw [same]
      exact alive.beats
    · intro other member
      apply alive.fresh
      rcases List.mem_append.mp member with member | member
      · exact List.mem_cons_of_mem task member
      · rw [List.mem_singleton.mp member]
        exact List.mem_cons_self ..
    · exact fun none => absurd (alive.data none).2.1 (List.cons_ne_nil _ _)
  start := by
    intro layer task queue beating _
    obtain ⟨alive,_⟩ := beating
    have popped : Alive layer (some task) queue :=
      ⟨alive.single,alive.opened,alive.connected,alive.beats,
        fun other member => alive.fresh other (List.mem_cons_of_mem task member),
        fun none => absurd (alive.data none).2.1 (List.cons_ne_nil _ _)⟩
    refine popped.executeQ0 fun _ reply => ?_
    exact absurd ((alive.fresh task (List.mem_cons_self ..)).symm.trans reply) Cs.noConfusion

theorem fresh_enqueue (fresh : ∀ other ∈ queue, other.cs = .start) (start : task.cs = .start) :
    ∀ other ∈ enqueue task queue, other.cs = .start := by
  intro other member
  unfold enqueue at member
  split at member
  · rcases List.mem_append.mp member with member | member
    · exact fresh other member
    · rw [List.mem_singleton.mp member]
      exact start
  · rcases List.mem_cons.mp member with rfl | member
    · exact start
    · exact fresh other member

theorem Beating.enqueue (beating : Beating layer current queue) (data : layer.hasData = true) (start : task.cs = .start)
    (connect : task.scenario ≠ .connect) (keepalive : task.scenario ≠ .keepalive) :
    Beating layer current (enqueue task queue) := by
  obtain ⟨alive,waits⟩ := beating
  have connects : inHand .connect current (Logic.enqueue task queue) = inHand .connect current queue := by
    rw [inHand_enqueue,if_neg connect]
    rfl
  have same : pulses layer current (Logic.enqueue task queue) = pulses layer current queue := by
    rw [pulses,inHand_enqueue,if_neg keepalive]
    rfl
  refine ⟨⟨?_,?_,?_,?_,fresh_enqueue alive.fresh start,fun none => absurd (data.symm.trans none) Bool.noConfusion⟩,waits⟩
  · rw [connects,same]
    exact alive.single
  · rw [connects]
    exact alive.opened
  · rw [same]
    exact alive.connected
  · rw [same]
    exact alive.beats

/-- The event becomes a task. -/
theorem Beating.beat (beating : Beating layer current queue) (scheduled : layer.keepaliveEvent = true) (addr : Nat) :
    Beating {layer with keepaliveEvent := false} current (Logic.enqueue (keepaliveTask addr) queue) := by
  obtain ⟨alive,waits⟩ := beating
  have connects : inHand .connect current (Logic.enqueue (keepaliveTask addr) queue) = inHand .connect current queue :=
    inHand_enqueue
  have same : pulses {layer with keepaliveEvent := false} current (Logic.enqueue (keepaliveTask addr) queue) =
      pulses layer current queue := by
    unfold pulses
    rw [inHand_enqueue,scheduled]
    change 0 + (inHand .keepalive current queue + 1) = 1 + inHand .keepalive current queue
    omega
  refine ⟨⟨?_,?_,?_,?_,fresh_enqueue alive.fresh rfl,?_⟩,waits⟩
  · rw [connects,same]
    exact alive.single
  · rw [connects]
    exact alive.opened
  · rw [same]
    exact alive.connected
  · rw [same]
    exact alive.beats
  · intro none
    rw [(alive.data none).2.2] at scheduled
    exact absurd scheduled Bool.false_ne_true

/-- The CONNECT task of a layer that connects is the only one. -/
theorem Beating.dial (beating : Beating layer current queue) (works : layer.working)
    (connecting : layer.layerState = .connecting) (none : inHand .connect current queue = 0) (addr : Nat) :
    Beating layer current (Logic.enqueue (connectTask addr) queue) := by
  obtain ⟨alive,waits⟩ := beating
  have early : ¬ (layer.connection.connectionState = .opened ∨ 0 < pulses layer current queue) := by
    intro late
    exact absurd (connecting.symm.trans (alive.connected works late)) LayerState.noConfusion
  have same : pulses layer current (Logic.enqueue (connectTask addr) queue) = pulses layer current queue := by
    rw [pulses,inHand_enqueue]
    rfl
  have quiet : pulses layer current queue = 0 := Nat.eq_zero_of_not_pos fun pulse => early (.inr pulse)
  refine ⟨⟨?_,fun opened => absurd (.inl opened) early,?_,?_,fresh_enqueue alive.fresh rfl,?_⟩,waits⟩
  · rw [same,quiet,inHand_enqueue,none]
    rfl
  · rw [same]
    exact alive.connected
  · rw [same]
    exact alive.beats
  · exact fun none => absurd (works.2.symm.trans none) Bool.noConfusion

theorem Beating.holds_calm (beating : HoldsQ0 Beating layer) (calm : Calm layer after)
    (current : after.currentQ0Task = layer.currentQ0Task) (queue : after.q0TasksQueue = layer.q0TasksQueue) :
    HoldsQ0 Beating after :=
  .of_same current queue (Beating.calm beating calm)

theorem Beating.holds_undisturbed (beating : HoldsQ0 Beating layer) (same : Undisturbed layer after) :
    HoldsQ0 Beating after :=
  holds_calm beating (.undisturbed same) same.currentQ0Task same.q0TasksQueue

/-- A layer with nothing in its hand, whose connection is not open. -/
theorem beating_of_empty (current : layer.currentQ0Task = none) (queue : layer.q0TasksQueue = [])
    (event : layer.keepaliveEvent = false) (closed : layer.working → layer.connection.connectionState ≠ .opened) :
    HoldsQ0 Beating layer := by
  have pulse : pulses layer none [] = 0 := by
    rw [pulses,event]
    rfl
  unfold HoldsQ0
  rw [current,queue]
  refine ⟨⟨?_,fun _ => rfl,?_,fun works opened => absurd opened (closed works),
    fun _ member => absurd member List.not_mem_nil,fun _ => ⟨rfl,rfl,event⟩⟩,?_⟩
  · rw [pulse]
    exact Nat.zero_le 1
  · rintro works (opened | positive)
    · exact absurd opened (closed works)
    · rw [pulse] at positive
      exact absurd positive (Nat.lt_irrefl 0)
  · exact fun _ none => absurd none.symm (Option.some_ne_none _)

theorem Beating.resumeQ0 {changed : Task} {state : XiState} {msg : Option Message} (beating : HoldsQ0 Beating layer)
    (current : layer.currentQ0Task = some task) (scenario : changed.scenario = task.scenario)
    (due : Due layer changed state msg) : HoldsQ0 Beating (layer.resumeQ0 changed state msg) := by
  have beating := beating.running current
  apply finishQ0_holds stable_beating
  exact (beating.1.retask scenario).executeQ0 due

theorem stopCurrentTask_current : layer.stopCurrentTask.currentQ0Task = none := by
  unfold LogicLayer.stopCurrentTask
  split
  · assumption
  · unfold LogicLayer.freeCurrentTask
    split
    · assumption
    · rfl

theorem Beating.closeExternally (beating : HoldsQ0 Beating layer) (state : XiState) :
    HoldsQ0 Beating (layer.closeExternally state) := by
  unfold LogicLayer.closeExternally
  split
  · rename_i failed
    exact Beating.holds_calm beating (.close state rfl rfl rfl (.inr (if_neg failed.1))) rfl rfl
  split
  · exact Beating.holds_calm beating (.close state rfl rfl rfl (.inr rfl)) rfl rfl
  · apply beating_of_empty
    · refine LogicLayer.perform_currentQ0Task.trans ?_
      exact LogicLayer.perform_currentQ0Task.trans stopCurrentTask_current
    · rfl
    · rfl
    · exact fun works => absurd works.1 Bool.noConfusion

/-- The layer that begins anew has nothing in its hand. -/
theorem Beating.init (beating : HoldsQ0 Beating layer) (data : layer.hasData = false) (connection : ConnectionData) :
    HoldsQ0 Beating (layer.init connection) := by
  obtain ⟨current,queue,event⟩ := beating.1.data data
  have quiet : (LogicLayer.freeHandlers layer.copyOfHandlersForTopics ++
      LogicLayer.freeTasks layer.copyOfQ12UnackedMessagesQueue).all Effect.quiet = true := by
    rw [List.all_append,freeHandlers_quiet,freeTasks_quiet]
    rfl
  have each := List.all_eq_true.mp quiet
  apply beating_of_empty
  all_goals
    unfold LogicLayer.init
    simp only
    split
  · exact current
  · exact LogicLayer.perform_currentQ0Task.trans (LogicLayer.perform_currentQ0Task.trans current)
  · exact queue
  · exact LogicLayer.perform_q0TasksQueue.trans (LogicLayer.perform_q0TasksQueue.trans queue)
  · exact event
  · exact (LogicLayer.perform_keepaliveEvent each).trans event
  · exact fun _ => ConnectionState.noConfusion
  · intro _ opened
    have opening := congrArg ConnectionData.connectionState (@LogicLayer.perform_connection
      {layer with hasData := true,connection := {connection with connectionState := .opening}} _ each)
    exact absurd (opened.symm.trans opening) ConnectionState.noConfusion

theorem beating_step (beating : HoldsQ0 Beating layer) (sequenced : event.sequenced layer)
    (answers : layer.awaitsPingresp → event.answersPing) (move : StepQ0 layer event after) : HoldsQ0 Beating after := by
  have stable := stable_beating
  cases move with
  | aside same past => exact Beating.holds_undisturbed beating same
  | queue same works q0 next =>
    rename_i request base
    have base := Beating.holds_undisturbed beating same
    have data := same.hasData.trans works.2
    apply queueQ0Task_holds stable
    cases request with
    | publish topic data' qos retain callback =>
      cases qos with
      | atMostOnce => exact Beating.enqueue base data rfl Scenario.noConfusion Scenario.noConfusion
      | atLeastOnce => exact absurd q0 Bool.false_ne_true
      | exactlyOnce => exact absurd q0 Bool.false_ne_true
    | subscribe topic qos handler session => exact absurd q0 Bool.false_ne_true
    | shutdown => exact Beating.enqueue base data rfl Scenario.noConfusion Scenario.noConfusion
  | confirm same works current =>
    rename_i type written base task
    apply Beating.resumeQ0 (Beating.holds_undisturbed beating same) (same.currentQ0Task.trans current) rfl
    intro keepalive reply
    refine ⟨?_,?_,fun opened => absurd rfl (answers ⟨works,same.connection ▸ opened,task,current,keepalive,reply⟩)⟩
    · cases written <;> exact fun timeout => absurd timeout XiState.noConfusion
    · cases written <;> exact fun ok => absurd ok XiState.noConfusion
  | pull works current plain zero =>
    rename_i msg task
    refine Beating.resumeQ0 beating current ?_ ?_
    · rfl
    · intro keepalive reply
      refine ⟨fun timeout => absurd timeout XiState.noConfusion,fun _ => rfl,fun opened => .inr ⟨msg,rfl,rfl,?_⟩⟩
      exact answers ⟨works,opened,task,current,keepalive,reply⟩ zero plain
  | connectTimeout current pending connect =>
    rename_i task
    have beating := beating.running current
    apply finishQ0_holds stable
    refine Alive.connectTimeout (beating.1.retask ?_) connect
    rfl
  | timeout current pending other =>
    refine Beating.resumeQ0 beating current ?_ ?_
    · rfl
    · intro _ _
      exact ⟨fun _ => rfl,fun ok => absurd ok XiState.noConfusion,fun _ => .inl rfl⟩
  | keepalive scheduled works same =>
    apply queueQ0Task_holds stable
    rw [same.currentQ0Task,same.q0TasksQueue]
    exact (Beating.beat beating scheduled layer.nextAddr).calm (.undisturbed same)
  | keepaliveLost scheduled closed same =>
    obtain ⟨alive,waits⟩ := beating
    have fewer : pulses {layer with keepaliveEvent := false} layer.currentQ0Task layer.q0TasksQueue ≤
        pulses layer layer.currentQ0Task layer.q0TasksQueue :=
      Nat.add_le_add_right (Nat.zero_le _) _
    refine Beating.holds_undisturbed ?_ same
    refine ⟨⟨(Nat.add_le_add_left fewer _).trans alive.single,alive.opened,fun works => absurd works closed,
      fun works => absurd works closed,alive.fresh,fun none => ?_⟩,waits⟩
    obtain ⟨current,queue,_⟩ := alive.data none
    exact ⟨current,queue,rfl⟩
  | connect same works =>
    obtain ⟨connecting,none⟩ := sequenced rfl
    apply queueQ0Task_holds stable
    rw [same.currentQ0Task,same.q0TasksQueue]
    exact (Beating.dial beating works connecting none layer.nextAddr).calm (.undisturbed same)
  | connectFailed failed =>
    exact Beating.holds_calm beating (.close .ok rfl rfl rfl (.inr (if_neg failed))) rfl rfl
  | terminal works => exact Beating.holds_calm beating (.close .backoffTerminal rfl rfl rfl (.inl rfl)) rfl rfl
  | init connection => exact Beating.init beating sequenced connection
  | close closing =>
    unfold LogicLayer.close
    split
    · exact Beating.holds_calm beating (.close closing rfl rfl rfl (.inl rfl)) rfl rfl
    · exact Beating.holds_calm beating (.close closing rfl rfl rfl (.inr rfl)) rfl rfl
  | closeExternally closing => exact Beating.closeExternally beating closing
  | setConnectionState state =>
    obtain ⟨alive,waits⟩ := beating
    refine ⟨⟨alive.single,fun opened => absurd opened sequenced,?_,fun _ opened => absurd opened sequenced,alive.fresh,
      alive.data⟩,waits⟩
    rintro works (opened | pulse)
    · exact absurd opened sequenced
    · exact alive.connected works (.inr pulse)

theorem Beating.keptAlive (beating : HoldsQ0 Beating layer) : layer.KeptAlive := by
  obtain ⟨alive,waits⟩ := beating
  refine ⟨fun opened timeout => ?_,(Nat.le_add_left _ _).trans alive.single⟩
  by_cases works : layer.working
  · have beats := alive.beats works opened timeout
    unfold pulses at beats
    cases event : layer.keepaliveEvent with
    | true => exact .inl rfl
    | false =>
      rw [event] at beats
      rcases inHand_pos.mp (beats.trans_eq (Nat.zero_add _)) with ⟨task,current,own⟩ | queued
      · refine .inr (.inl ⟨task,current,own,fun reply => ?_⟩)
        rcases waits task current own works with sent | ⟨_,pending⟩
        · exact absurd (sent.symm.trans reply) Cs.noConfusion
        · exact pending
      · exact .inr (.inr (.inl queued))
  · exact .inr (.inr (.inr works))

/-- From the first init on: as long as a keepalive task that waits for its answer gets a PINGRESP and no
confirmation, the keepalive of an open connection goes on. -/
theorem keepalive_goes_on {events : List Event}
    (orderly : Runs.Admissible (step {}) (fun layer event => layer.fault = false →
      event.sequenced layer ∧ (layer.awaitsPingresp → event.answersPing)) {} events) :
    Runs.Always (step {}) LogicLayer.KeptAlive {} events := by
  have start : HoldsQ0 Beating {} := beating_of_empty rfl rfl rfl fun works => absurd works.2 Bool.false_ne_true
  have always := Runs.always_of_step (I := HoldsQ0 Beating) (fun layer event beating may => ?_) start orderly
  · exact always.mono fun _ beating => Beating.keptAlive beating
  · cases fault : layer.fault with
    | true =>
      unfold step
      rw [if_pos fault]
      exact beating
    | false =>
      obtain ⟨sequenced,answers⟩ := may fault
      exact beating_step beating sequenced answers (step_cases {} fault event)

theorem keepalive_goes_on_answered :
    Runs.Always (step {}) LogicLayer.KeptAlive {}
      (openedConnection {keepaliveTimeout := 10} ++ [.keepaliveOnce,.confirm 0 .pingreq true,.pull pingresp]) :=
  keepalive_goes_on (by decide +kernel)

/-- Another message with the id 0 ends the keepalive task, and nothing takes its place. -/
theorem keepalive_stops :
    ¬ (Runs.final (step {}) {} (openedConnection {keepaliveTimeout := 10} ++
      [.keepaliveOnce,.confirm 0 .pingreq true,.pull acceptingConnack])).KeptAlive := by
  let layer := Runs.final (step {}) {} (openedConnection {keepaliveTimeout := 10} ++
    [.keepaliveOnce,.confirm 0 .pingreq true,.pull acceptingConnack])
  have none : layer.currentQ0Task = none := by decide +kernel
  have empty : layer.q0TasksQueue = [] := by decide +kernel
  intro kept
  rcases kept.beats (by decide +kernel) (by decide +kernel) with event | ⟨task,current,_⟩ | ⟨task,member,_⟩ | closed
  · exact absurd event (by decide +kernel)
  · exact absurd (none.symm.trans current).symm (Option.some_ne_none task)
  · exact absurd (empty ▸ member) List.not_mem_nil
  · exact closed (by decide +kernel)

end Steps

end XivelyClient.Mqtt.Logic
