import XivelyClient.Mqtt.Logic.QueueQ0

/-! The CONNECT handshake: what the layer above is told, and what becomes of the connection timeout. -/
namespace XivelyClient.Mqtt.Logic

def Effect.notice : Effect → Option XiState
  | .connectNext state => some state
  | _ => none

/-- The CONNECT notifications that the layer above has got. -/
def LogicLayer.notices (layer : LogicLayer) : List XiState := observe Effect.notice layer.effects

def accepts (msg : Message) : Prop := msg.common.type = .connack ∧ msg.connack.returnCode = 0

instance (msg : Message) : Decidable (accepts msg) :=
  inferInstanceAs (Decidable (msg.common.type = .connack ∧ msg.connack.returnCode = 0))

/-- One CONNECT notification, the connection state that it left behind, and whether an accepting CONNACK had
been received. -/
structure Notice where
  state : XiState
  connectionState : ConnectionState
  accepted : Bool
  deriving DecidableEq, Repr

/-- The layer with the history of its handshake. -/
structure Handshake where
  layer : LogicLayer
  accepted : Bool := false
  notices : List Notice := []

namespace Handshake

def acceptedBy (event : Event) : Bool :=
  match event with
  | .pull msg => accepts msg
  | _ => false

/-- The history after a call: its notifications are those behind the ones before it. -/
def heard (handshake : Handshake) (event : Event) (after : LogicLayer) : Handshake :=
  let accepted := handshake.accepted || acceptedBy event
  let told := after.notices.drop handshake.layer.notices.length
  {layer := after
   accepted := accepted
   notices := handshake.notices ++ told.map fun state => ⟨state,after.connection.connectionState,accepted⟩}

def step (handshake : Handshake) (event : Event) : Handshake :=
  if handshake.layer.fault then handshake else handshake.heard event (Logic.step {} handshake.layer event)

end Handshake

/-- The CONNECT task is current. -/
def LogicLayer.connecting (layer : LogicLayer) : Prop :=
  ∃ task, layer.currentQ0Task = some task ∧ task.scenario = .connect

/-- The time event of the CONNECT task is in the dispatcher: the task holds it, or was freed under it. -/
def LogicLayer.connectTimeoutPending (layer : LogicLayer) (addr : Nat) : Prop :=
  (∃ task, layer.currentQ0Task = some task ∧ task.scenario = .connect ∧ task.timeout.isSome = true) ∨
    addr ∈ layer.orphans

/-- One notification at the end of the handshake, OK exactly if the server has accepted; then the connection is
open. No time event is left. -/
def Handshake.Told (addr : Nat) (handshake : Handshake) : Prop :=
  (handshake.layer.connecting → handshake.notices = []) ∧
  (¬ handshake.layer.connecting → ∃ notice, handshake.notices = [notice] ∧
    (notice.state = .ok ↔ notice.accepted = true) ∧ (notice.state = .ok → notice.connectionState = .opened) ∧
    ¬ handshake.layer.connectTimeoutPending addr)

/-- The layer before its CONNECT: nothing runs, and no other CONNECT waits. -/
structure LogicLayer.Idle (layer : LogicLayer) : Prop where
  layerState : layer.layerState = .connecting
  hasData : layer.hasData = true
  current : layer.currentQ0Task = none
  queue : ∀ other ∈ layer.q0TasksQueue, other.scenario ≠ .connect ∧ other.addr < layer.nextAddr
  orphans : ∀ addr ∈ layer.orphans, addr < layer.nextAddr

/-- Every call but another attempt. -/
def Event.sameAttempt : Event → Bool
  | .init _ | .connect _ => false
  | _ => true

/-- No message for the CONNECT task but a CONNACK once CONNECT is written, and no end of the connection but a
clean one before that. -/
def orderly (layer : LogicLayer) : Event → Prop
  | .pull msg => getMessageId msg = 0 → msg.common.type ≠ .publish →
    ∀ task, layer.currentQ0Task = some task → task.scenario = .connect →
      task.cs = .reply ∧ msg.common.type = .connack
  | .closeExternally state => ∀ task, layer.currentQ0Task = some task → task.scenario = .connect →
    task.cs = .sent ∧ state = .ok
  | _ => True

section Notices

variable {layer after : LogicLayer} {task : Task} {queue : List Task} {current : Option Task}

theorem blind_notice : Blind Effect.notice := by
  intro effect quiet
  cases effect <;> first | rfl | exact absurd quiet Bool.false_ne_true

theorem notice_other {scenario : Scenario} (other : scenario ≠ .connect) (effect : Effect)
    (belongs : effect.belongs scenario = true) : effect.notice = none := by
  cases effect with
  | connectNext state => exact absurd (of_decide_eq_true belongs) other
  | _ => rfl

theorem notices_perform (effects : List Effect) :
    (layer.perform effects).notices = layer.notices ++ observe Effect.notice effects := by
  rw [LogicLayer.notices,LogicLayer.perform_effects,observe_append]
  rfl

/-- The handshake is over: its task is gone, and what the layer above was told stays. -/
structure Over (addr : Nat) (told : List XiState) (layer : LogicLayer) (current : Option Task)
    (queue : List Task) : Prop where
  notices : layer.notices = told
  current : ∀ task, current = some task → task.scenario ≠ .connect ∧ task.addr ≠ addr
  queue : ∀ task ∈ queue, task.scenario ≠ .connect ∧ task.addr ≠ addr
  orphans : addr ∉ layer.orphans
  addr : addr < layer.nextAddr

variable {addr : Nat} {told : List XiState}

theorem Over.resume (settled : Over addr told layer (some task) queue) {outcome : Outcome}
    (command : outcome.Command task) :
    Over addr told ((layer.perform outcome.effects).failIf outcome.fault) outcome.task queue where
  notices := by
    obtain ⟨other,_⟩ := settled.current task rfl
    change (layer.perform outcome.effects).notices = told
    rw [notices_perform,command.observe (notice_other other),List.append_nil]
    exact settled.notices
  current := by
    obtain ⟨other,away⟩ := settled.current task rfl
    intro result same
    rw [command.scenario result same,command.addr result same]
    exact ⟨other,away⟩
  queue := settled.queue
  orphans := by
    change addr ∉ (layer.perform outcome.effects).orphans
    rw [LogicLayer.perform_orphans]
    exact settled.orphans
  addr := by
    change addr < (layer.perform outcome.effects).nextAddr
    rw [LogicLayer.perform_nextAddr]
    exact settled.addr

theorem stable_over (addr : Nat) (told : List XiState) : StableQ0 (Over addr told) where
  blind := fun _ _ _ _ _ settled => ⟨settled.notices,settled.current,settled.queue,settled.orphans,settled.addr⟩
  rotate := by
    intro layer task queue settled _ _
    refine ⟨settled.notices,settled.current,?_,settled.orphans,settled.addr⟩
    intro other member
    apply settled.queue
    rcases List.mem_append.mp member with member | member
    · exact List.mem_cons_of_mem task member
    · rw [List.mem_singleton.mp member]
      exact List.mem_cons_self ..
  start := by
    intro layer task queue settled _
    have popped : Over addr told layer (some task) queue := by
      refine ⟨settled.notices,?_,fun other member => settled.queue other (List.mem_cons_of_mem task member),settled.orphans,
        settled.addr⟩
      rintro _ ⟨⟩
      exact settled.queue task (List.mem_cons_self ..)
    exact popped.resume (executeQ0_command ..)

theorem Over.beside (settled : Over addr told layer current queue) (notices : after.notices = layer.notices)
    (orphans : after.orphans ⊆ layer.orphans) (next : layer.nextAddr ≤ after.nextAddr) :
    Over addr told after current queue :=
  ⟨notices.trans settled.notices,settled.current,settled.queue,fun member => settled.orphans (orphans member),
    settled.addr.trans_le next⟩

theorem Over.perform (settled : Over addr told layer current queue) {effects : List Effect}
    (none : observe Effect.notice effects = []) : Over addr told (layer.perform effects) current queue := by
  refine settled.beside ?_ ?_ LogicLayer.perform_nextAddr.ge
  · rw [notices_perform,none,List.append_nil]
  · rw [LogicLayer.perform_orphans]
    exact List.Subset.refl _

theorem Over.undisturbed (settled : HoldsQ0 (Over addr told) layer) (same : Undisturbed layer after) :
    HoldsQ0 (Over addr told) after :=
  .of_same same.currentQ0Task same.q0TasksQueue (Over.beside settled (same.observe blind_notice) same.orphans same.nextAddr)

theorem Over.enqueue (settled : Over addr told layer current queue) {fresh : Nat} (scenario : task.scenario ≠ .connect)
    (own : task.addr = fresh) (next : addr < fresh) : Over addr told layer current (enqueue task queue) := by
  refine ⟨settled.notices,settled.current,?_,settled.orphans,settled.addr⟩
  have new : task.scenario ≠ .connect ∧ task.addr ≠ addr := ⟨scenario,own ▸ next.ne'⟩
  intro other member
  unfold Logic.enqueue at member
  split at member
  · rcases List.mem_append.mp member with member | member
    · exact settled.queue other member
    · rw [List.mem_singleton.mp member]
      exact new
  · rcases List.mem_cons.mp member with rfl | member
    · exact new
    · exact settled.queue other member

theorem Over.retask {changed : Task} (settled : Over addr told layer (some task) queue)
    (scenario : changed.scenario = task.scenario) (own : changed.addr = task.addr) :
    Over addr told layer (some changed) queue := by
  refine ⟨settled.notices,?_,settled.queue,settled.orphans,settled.addr⟩
  rintro _ ⟨⟩
  rw [scenario,own]
  exact settled.current task rfl

theorem Over.holds_perform (settled : HoldsQ0 (Over addr told) layer) {effects : List Effect}
    (none : observe Effect.notice effects = []) : HoldsQ0 (Over addr told) (layer.perform effects) :=
  .of_same LogicLayer.perform_currentQ0Task LogicLayer.perform_q0TasksQueue (Over.perform settled none)

theorem Over.resumeQ0 (settled : HoldsQ0 (Over addr told) layer) (current : layer.currentQ0Task = some task)
    {changed : Task} (scenario : changed.scenario = task.scenario) (own : changed.addr = task.addr) (state : XiState)
    (msg : Option Message) : HoldsQ0 (Over addr told) (layer.resumeQ0 changed state msg) := by
  have settled := settled.running current
  apply finishQ0_holds (stable_over addr told)
  exact (settled.retask scenario own).resume (executeQ0_command ..)

theorem Over.freeCurrentTask (settled : HoldsQ0 (Over addr told) layer) :
    HoldsQ0 (Over addr told) layer.freeCurrentTask := by
  unfold LogicLayer.freeCurrentTask
  split
  · exact settled
  · rename_i task current
    have settled := settled.running current
    have freed : Over addr told (layer.perform task.free) (some task) layer.q0TasksQueue :=
      settled.perform (observe_free blind_notice task)
    unfold HoldsQ0
    rw [LogicLayer.perform_q0TasksQueue]
    refine ⟨freed.notices,fun _ none => absurd none.symm (Option.some_ne_none _),freed.queue,?_,freed.addr⟩
    change addr ∉ if task.timeout.isSome then layer.orphans ++ [task.addr] else layer.orphans
    split
    · intro member
      rcases List.mem_append.mp member with member | member
      · exact settled.orphans member
      · exact (settled.current task rfl).2 (List.mem_singleton.mp member).symm
    · exact settled.orphans

theorem Over.freeLayerData (settled : HoldsQ0 (Over addr told) layer) : HoldsQ0 (Over addr told) layer.freeLayerData := by
  have quiet : (LogicLayer.freeTasks layer.q12TasksQueue ++ LogicLayer.freeTasks layer.q12RecvTasksQueue ++
      LogicLayer.freeTasks layer.q0TasksQueue).all Effect.quiet = true := by
    simp only [List.all_append,freeTasks_quiet,Bool.and_self]
  have freed := Over.perform settled (observe_quiet blind_notice quiet)
  unfold HoldsQ0 LogicLayer.freeLayerData
  refine ⟨freed.notices,?_,?_,freed.orphans,freed.addr⟩
  · rw [LogicLayer.perform_currentQ0Task]
    exact freed.current
  · intro task member
    exact absurd member List.not_mem_nil

theorem Over.closeExternally (settled : HoldsQ0 (Over addr told) layer) (state : XiState) :
    HoldsQ0 (Over addr told) (layer.closeExternally state) := by
  unfold LogicLayer.closeExternally
  split
  · exact Over.holds_perform settled rfl
  split
  · exact Over.holds_perform settled rfl
  · apply Over.holds_perform _ rfl
    apply Over.freeLayerData
    have released := Over.undisturbed settled Undisturbed.releaseSession
    unfold LogicLayer.stopCurrentTask
    split
    · exact released
    · rename_i task current
      exact Over.freeCurrentTask (Over.resumeQ0 released current rfl rfl _ _)

/-- Nothing brings the handshake back. -/
theorem over_step {event : Event} (settled : HoldsQ0 (Over addr told) layer) (attempt : event.sameAttempt = true)
    (move : StepQ0 layer event after) : HoldsQ0 (Over addr told) after := by
  have stable := stable_over addr told
  cases move with
  | aside same past => exact Over.undisturbed settled same
  | queue same works q0 next =>
    rename_i request base
    apply queueQ0Task_holds stable
    have base := Over.undisturbed settled same
    cases request with
    | publish topic data qos retain callback =>
      cases qos with
      | atMostOnce => exact Over.enqueue base Scenario.noConfusion rfl settled.addr
      | atLeastOnce => exact absurd q0 Bool.false_ne_true
      | exactlyOnce => exact absurd q0 Bool.false_ne_true
    | subscribe topic qos handler session => exact absurd q0 Bool.false_ne_true
    | shutdown => exact Over.enqueue base Scenario.noConfusion rfl settled.addr
  | confirm same works current =>
    exact Over.resumeQ0 (Over.undisturbed settled same) (same.currentQ0Task.trans current) rfl rfl _ _
  | pull works current plain zero => refine Over.resumeQ0 settled current ?_ ?_ _ _ <;> rfl
  | connectTimeout current pending connect => exact absurd connect (settled.current _ current).1
  | timeout current pending other => refine Over.resumeQ0 settled current ?_ ?_ _ _ <;> rfl
  | keepalive scheduled works same =>
    have dropped : HoldsQ0 (Over addr told) {layer with keepaliveEvent := false} :=
      Over.beside settled rfl (List.Subset.refl _) le_rfl
    apply queueQ0Task_holds stable
    exact Over.enqueue (Over.undisturbed dropped same) Scenario.noConfusion rfl settled.addr
  | keepaliveLost scheduled closed same =>
    have dropped : HoldsQ0 (Over addr told) {layer with keepaliveEvent := false} :=
      Over.beside settled rfl (List.Subset.refl _) le_rfl
    exact Over.undisturbed dropped same
  | connect same works => exact absurd attempt Bool.false_ne_true
  | connectFailed failed => exact absurd attempt Bool.false_ne_true
  | terminal works => exact Over.holds_perform settled rfl
  | init connection => exact absurd attempt Bool.false_ne_true
  | close closing =>
    unfold LogicLayer.close
    split
    · exact Over.holds_perform settled rfl
    · exact Over.holds_perform settled rfl
  | closeExternally closing => exact Over.closeExternally settled closing
  | setConnectionState state => exact Over.beside settled rfl (List.Subset.refl _) le_rfl

end Notices

section Running

/-! While the CONNECT task runs. -/

variable {layer after : LogicLayer} {task : Task} {addr : Nat} {told : List XiState}

/-- The handshake is under way, and the layer above has been told nothing new. -/
structure Running (addr : Nat) (told : List XiState) (layer : LogicLayer) (task : Task) : Prop where
  current : layer.currentQ0Task = some task
  connect : task.scenario = .connect
  own : task.addr = addr
  cs : task.cs = .sent ∨ task.cs = .reply
  msg : task.msg = none
  layerState : layer.layerState = .connecting
  hasData : layer.hasData = true
  rest : Over addr told layer none layer.q0TasksQueue

theorem Running.working (running : Running addr told layer task) : layer.working := by
  refine ⟨?_,running.hasData⟩
  rw [LogicLayer.notOperational,running.layerState]
  rfl

theorem Running.undisturbed (running : Running addr told layer task) (same : Undisturbed layer after) :
    Running addr told after task where
  current := same.currentQ0Task.trans running.current
  connect := running.connect
  own := running.own
  cs := running.cs
  msg := running.msg
  layerState := same.layerState.trans running.layerState
  hasData := same.hasData.trans running.hasData
  rest := by
    rw [same.q0TasksQueue]
    exact running.rest.beside (same.observe blind_notice) same.orphans same.nextAddr

theorem Running.queue (running : Running addr told layer task) {new : Task} {fresh : Nat}
    (scenario : new.scenario ≠ .connect) (own : new.addr = fresh) (next : addr < fresh) :
    Running addr told (layer.queueQ0Task new) task := by
  have queued : layer.queueQ0Task new = {layer with q0TasksQueue := enqueue new layer.q0TasksQueue} := by
    unfold LogicLayer.queueQ0Task
    rw [running.current]
    rfl
  rw [queued]
  exact ⟨running.current,running.connect,running.own,running.cs,running.msg,running.layerState,running.hasData,
    (running.rest.enqueue scenario own next).beside rfl (List.Subset.refl _) le_rfl⟩

/-- A close does not move a layer that connects. -/
theorem Running.close (running : Running addr told layer task) (effect : Effect)
    (closing : ∃ state, effect = .closePrev state ∨ effect = .closeThis state) :
    Running addr told (layer.perform [effect]) task := by
  have still : (layer.perform [effect]).layerState = layer.layerState := by
    obtain ⟨state,rfl | rfl⟩ := closing
    all_goals
      change LayerState.getNextLayerState .close layer.layerState state = layer.layerState
      rw [running.layerState]
      rfl
  have none : observe Effect.notice [effect] = [] := by
    obtain ⟨state,rfl | rfl⟩ := closing <;> rfl
  refine ⟨?_,running.connect,running.own,running.cs,running.msg,still.trans running.layerState,?_,?_⟩
  · rw [LogicLayer.perform_currentQ0Task]
    exact running.current
  · rw [LogicLayer.perform_hasData]
    exact running.hasData
  · rw [LogicLayer.perform_q0TasksQueue]
    exact running.rest.perform none

/-- The end of the CONNECT task with one notification. -/
theorem Running.finish (running : Running addr told layer task) {outcome : Outcome} {state : XiState}
    (ended : outcome.task = none) (notice : observe Effect.notice outcome.effects = [state]) :
    HoldsQ0 (Over addr (told ++ [state])) (layer.finishQ0 outcome) := by
  apply finishQ0_holds (stable_over addr (told ++ [state]))
  rw [ended]
  refine ⟨?_,fun _ none => absurd none.symm (Option.some_ne_none _),running.rest.queue,?_,?_⟩
  · change (layer.perform outcome.effects).notices = _
    rw [notices_perform,notice,running.rest.notices]
  · change addr ∉ (layer.perform outcome.effects).orphans
    rw [LogicLayer.perform_orphans]
    exact running.rest.orphans
  · change addr < (layer.perform outcome.effects).nextAddr
    rw [LogicLayer.perform_nextAddr]
    exact running.rest.addr

/-- The CONNECT task goes on, or stops at an assertion. -/
theorem Running.goesOn (running : Running addr told layer task) {outcome : Outcome} {result : Task}
    (same : outcome.task = some result) (none : outcome.effects = []) (own : result.addr = addr)
    (connect : result.scenario = .connect) (cs : result.cs = .sent ∨ result.cs = .reply) (msg : result.msg = .none) :
    Running addr told (layer.finishQ0 outcome) result := by
  have finished : layer.finishQ0 outcome = {layer.failIf outcome.fault with currentQ0Task := some result} := by
    unfold LogicLayer.finishQ0
    rw [none,same]
    rfl
  rw [finished]
  exact ⟨rfl,connect,own,cs,msg,running.layerState,running.hasData,
    running.rest.beside rfl (List.Subset.refl _) le_rfl⟩

theorem getErrorFromConnack_ne_ok (returnCode : UInt8) : getErrorFromConnack returnCode ≠ .ok := by
  unfold getErrorFromConnack
  split <;> exact XiState.noConfusion

/-- The answer that the CONNECT task waits for ends it with one notification. -/
theorem connectReply_notice (layer : LogicLayer) (task : Task) (state : XiState) {msg : Message} (connack : msg.common.type = .connack) :
    ∃ told, (connectReply layer task state msg).task = none ∧
      observe Effect.notice (connectReply layer task state msg).effects = [told] ∧
      (state = .ok → (told = .ok ↔ accepts msg)) ∧
      (accepts msg → .opened ∈ (connectReply layer task state msg).effects) := by
  have free := observe_free blind_notice task
  unfold connectReply
  rw [if_pos connack]
  by_cases code : msg.connack.returnCode = 0
  · rw [if_pos code]
    refine ⟨if 0 < layer.connection.keepaliveTimeout then .ok else state,rfl,?_,?_,?_⟩
    · split <;> simp [free,Effect.notice]
    · rintro rfl
      rw [ite_self]
      exact ⟨fun _ => ⟨connack,code⟩,fun _ => rfl⟩
    · intro _
      simp
  · rw [if_neg code]
    refine ⟨getErrorFromConnack msg.connack.returnCode,rfl,?_,?_,?_⟩
    · simp [free,Effect.notice]
    · intro _
      exact ⟨fun same => absurd same (getErrorFromConnack_ne_ok _),fun accepted => absurd accepted.2 code⟩
    · intro accepted
      exact absurd accepted.2 code

theorem perform_opened {effects : List Effect} (opened : layer.connection.connectionState = .opened) :
    (layer.perform effects).connection.connectionState = .opened := by
  induction effects generalizing layer with
  | nil => exact opened
  | cons effect effects ih =>
    rw [LogicLayer.perform_cons]
    apply ih
    cases effect <;> first | exact opened | rfl

theorem opened_of_mem {effects : List Effect} (opened : .opened ∈ effects) :
    (layer.perform effects).connection.connectionState = .opened := by
  obtain ⟨first,rest,rfl⟩ := List.append_of_mem opened
  rw [LogicLayer.perform_append,LogicLayer.perform_cons]
  exact perform_opened rfl

theorem stable_opened : StableQ0 fun layer _ _ => layer.connection.connectionState = .opened where
  blind := fun _ _ _ _ _ opened => opened
  rotate := fun _ _ _ opened _ _ => opened
  start := fun _ _ _ opened _ => perform_opened opened

/-- What the layer does when the CONNECT task is resumed. -/
theorem Running.executeQ0 (running : Running addr told layer task) (changed : Task)
    (scenario : changed.scenario = task.scenario) (own : changed.cs = task.cs) (state : XiState) (msg : Option Message) :
    layer.executeQ0 changed state msg =
      if task.cs = .sent then
        if state = .written then {task := some {changed with cs := .reply}}
        else {task := none,effects := [.connectNext state] ++ freeMessage msg ++ changed.free}
      else
        match msg with
        | none => .abort changed
        | some msg => connectReply layer changed state msg := by
  have command : layer.executeQ0 changed state msg = doMqttConnect layer changed state msg := by
    unfold LogicLayer.executeQ0
    rw [scenario,running.connect]
  rw [command]
  unfold doMqttConnect
  rw [if_neg (by rw [working_iff.mp running.working]; exact Bool.false_ne_true)]
  rcases running.cs with cs | cs
  · simp only [own,cs,if_true]
  · cases msg <;> simp only [own,cs,reduceCtorEq,if_false]

/-- The state of the handshake between two calls. -/
def Handshake.Sound (addr : Nat) (handshake : Handshake) : Prop :=
  (∃ task, Running addr handshake.layer.notices handshake.layer task ∧ handshake.notices = [] ∧
    handshake.accepted = false) ∨
  (HoldsQ0 (Over addr handshake.layer.notices) handshake.layer ∧ ∃ notice, handshake.notices = [notice] ∧
    (notice.state = .ok ↔ notice.accepted = true) ∧ (notice.state = .ok → notice.connectionState = .opened))

theorem Handshake.Sound.isTold {handshake : Handshake} (sound : handshake.Sound addr) : handshake.Told addr := by
  rcases sound with ⟨task,running,none,_⟩ | ⟨settled,notice,one,accepted,opened⟩
  · exact ⟨fun _ => none,fun settled => absurd ⟨task,running.current,running.connect⟩ settled⟩
  · constructor
    · rintro ⟨task,current,connect⟩
      exact absurd connect (settled.current task current).1
    · intro _
      refine ⟨notice,one,accepted,opened,?_⟩
      rintro (⟨task,current,connect,_⟩ | orphan)
      · exact (settled.current task current).1 connect
      · exact settled.orphans orphan

variable {handshake : Handshake} {event : Event}

/-- The call that ends the CONNECT task. -/
theorem heard_end (state : XiState) (first : handshake.notices = [])
    (settled : HoldsQ0 (Over addr (handshake.layer.notices ++ [state])) after)
    (iff : state = .ok ↔ (handshake.accepted || Handshake.acceptedBy event) = true)
    (opened : state = .ok → after.connection.connectionState = .opened) :
    (handshake.heard event after).Sound addr := by
  have same := Over.notices settled
  refine .inr ⟨?_,⟨state,after.connection.connectionState,_⟩,?_,iff,opened⟩
  · change HoldsQ0 (Over addr after.notices) after
    rw [same]
    exact settled
  · change handshake.notices ++ (after.notices.drop handshake.layer.notices.length).map _ = _
    rw [first,same,List.drop_left]
    rfl

/-- The call that ends the CONNECT task without a CONNACK. -/
theorem heard_failure (state : XiState) (first : handshake.notices = [])
    (refused : handshake.accepted = false) (settled : HoldsQ0 (Over addr (handshake.layer.notices ++ [state])) after)
    (failed : state ≠ .ok) (other : Handshake.acceptedBy event = false) : (handshake.heard event after).Sound addr := by
  apply heard_end state first settled
  · rw [refused,other]
    exact ⟨fun ok => absurd ok failed,fun accepted => absurd accepted Bool.false_ne_true⟩
  · exact fun ok => absurd ok failed

/-- A call that the layer above does not hear of. -/
theorem Running.silent (running : Running addr handshake.layer.notices after task) (first : handshake.notices = [])
    (refused : (handshake.accepted || Handshake.acceptedBy event) = false) :
    (handshake.heard event after).Sound addr := by
  have same := running.rest.notices
  refine .inl ⟨task,?_,?_,refused⟩
  · change Running addr after.notices after task
    rw [same]
    exact running
  · change handshake.notices ++ (after.notices.drop handshake.layer.notices.length).map _ = []
    rw [first,same,List.drop_length]
    rfl

theorem Running.closeExternally (running : Running addr told layer task) (cs : task.cs = .sent) :
    HoldsQ0 (Over addr (told ++ [.timeout])) (layer.closeExternally .ok) := by
  unfold LogicLayer.closeExternally
  rw [if_neg (fun failed => failed.1 rfl),running.hasData]
  simp only [Bool.not_true,Bool.false_eq_true,if_false]
  apply Over.holds_perform _ rfl
  apply Over.freeLayerData
  have released := running.undisturbed Undisturbed.releaseSession
  unfold LogicLayer.stopCurrentTask
  rw [released.current]
  simp only
  apply Over.freeCurrentTask
  have outcome := released.executeQ0 task rfl rfl .timeout task.msg
  rw [if_pos cs,if_neg XiState.noConfusion,running.msg] at outcome
  unfold LogicLayer.resumeQ0
  rw [running.msg,outcome]
  apply released.finish rfl
  simp [freeMessage,Effect.notice,observe_free blind_notice]

theorem sound_step (sound : handshake.Sound addr)
    (may : handshake.layer.fault = false → event.sameAttempt = true ∧ orderly handshake.layer event) :
    (handshake.step event).Sound addr := by
  unfold Handshake.step
  split
  · exact sound
  rename_i faultless
  obtain ⟨attempt,orderly⟩ := may (eq_false_of_ne_true faultless)
  have move := step_cases {} (eq_false_of_ne_true faultless) event
  generalize Logic.step {} handshake.layer event = after at move
  rcases sound with ⟨task,running,first,refused⟩ | ⟨settled,notice,one,accepted,opened⟩
  · have unheard (result : Task) (still : Running addr handshake.layer.notices after result)
        (other : Handshake.acceptedBy event = false) : (handshake.heard event after).Sound addr :=
      still.silent first (by rw [refused,other]; rfl)
    cases move with
    | aside same past =>
      apply unheard task (running.undisturbed same)
      unfold Handshake.acceptedBy
      split
      · rename_i msg
        apply decide_eq_false
        intro accepting
        apply past
        refine ⟨?_,?_,running.working,?_⟩
        · rw [accepting.1]
          exact MqttType.noConfusion
        · rw [getMessageId,accepting.1]
        · rw [running.current]
          rfl
      · rfl
    | queue same works q0 next =>
      rename_i request base
      have base := running.undisturbed same
      cases request with
      | publish topic data qos retain callback =>
        cases qos with
        | atMostOnce => exact unheard _ (base.queue Scenario.noConfusion rfl running.rest.addr) rfl
        | atLeastOnce => exact absurd q0 Bool.false_ne_true
        | exactlyOnce => exact absurd q0 Bool.false_ne_true
      | subscribe topic qos handler session => exact absurd q0 Bool.false_ne_true
      | shutdown => exact unheard _ (base.queue Scenario.noConfusion rfl running.rest.addr) rfl
    | confirm same works current =>
      rename_i type written base other
      have known : other = task := Option.some.inj (current.symm.trans running.current)
      subst known
      have base := running.undisturbed same
      have outcome := base.executeQ0 other rfl rfl (if written then .written else .failedWriting) other.msg
      rcases running.cs with cs | cs
      · rw [if_pos cs] at outcome
        cases written with
        | true =>
          rw [if_pos (if_pos rfl)] at outcome
          refine unheard {other with cs := .reply} ?_ rfl
          unfold LogicLayer.resumeQ0
          rw [outcome]
          exact base.goesOn rfl rfl running.own running.connect (.inr rfl) running.msg
        | false =>
          refine heard_failure .failedWriting first refused ?_ XiState.noConfusion rfl
          unfold LogicLayer.resumeQ0
          rw [outcome]
          apply base.finish rfl
          simp [observe_freeMessage blind_notice,observe_free blind_notice,Effect.notice]
      · have waits : other.cs ≠ .sent := by rw [cs]; exact Cs.noConfusion
        rw [if_neg waits,running.msg] at outcome
        refine unheard other ?_ rfl
        unfold LogicLayer.resumeQ0
        rw [running.msg,outcome]
        exact base.goesOn rfl rfl running.own running.connect running.cs running.msg
    | pull works current plain zero =>
      rename_i msg other
      have known : other = task := Option.some.inj (current.symm.trans running.current)
      subst known
      obtain ⟨cs,connack⟩ := orderly zero plain other current running.connect
      have outcome := running.executeQ0 {other with msg := some msg} rfl rfl .ok (some msg)
      have waits : other.cs ≠ .sent := by rw [cs]; exact Cs.noConfusion
      rw [if_neg waits] at outcome
      obtain ⟨state,ended,notice,accepting,opened⟩ :=
        connectReply_notice handshake.layer {other with msg := some msg} .ok connack
      unfold LogicLayer.resumeQ0
      rw [outcome]
      apply heard_end state first (running.finish ended notice)
      · rw [refused,accepting rfl]
        exact ⟨fun accepted => decide_eq_true accepted,fun accepted => of_decide_eq_true accepted⟩
      · intro ok
        apply finishQ0_holds stable_opened
        exact opened_of_mem (opened ((accepting rfl).mp ok))
    | connectTimeout current pending connect =>
      rename_i other
      refine heard_failure .timeout first refused ?_ XiState.noConfusion rfl
      unfold doMqttConnectTimeout
      rw [if_pos running.hasData]
      apply running.finish rfl
      simp [observe_free blind_notice,Effect.notice]
    | timeout current pending other =>
      rename_i found
      have known : found = task := Option.some.inj (current.symm.trans running.current)
      exact absurd running.connect (known ▸ other)
    | keepalive scheduled works same =>
      have dropped : Running addr handshake.layer.notices {handshake.layer with keepaliveEvent := false} task :=
        ⟨running.current,running.connect,running.own,running.cs,running.msg,running.layerState,running.hasData,
          running.rest.beside rfl (List.Subset.refl _) le_rfl⟩
      exact unheard _ ((dropped.undisturbed same).queue Scenario.noConfusion rfl running.rest.addr) rfl
    | keepaliveLost scheduled closed same => exact absurd running.working closed
    | connect same works => exact absurd attempt Bool.false_ne_true
    | connectFailed failed => exact absurd attempt Bool.false_ne_true
    | terminal works => exact unheard _ (running.close _ ⟨_,.inr rfl⟩) rfl
    | init connection => exact absurd attempt Bool.false_ne_true
    | close closing =>
      refine unheard task ?_ rfl
      unfold LogicLayer.close
      rw [if_pos running.hasData]
      exact running.close _ ⟨_,.inl rfl⟩
    | closeExternally closing =>
      obtain ⟨cs,ok⟩ := orderly task running.current running.connect
      subst ok
      exact heard_failure .timeout first refused (running.closeExternally cs) XiState.noConfusion rfl
    | setConnectionState state =>
      exact unheard task ⟨running.current,running.connect,running.own,running.cs,running.msg,running.layerState,
        running.hasData,running.rest.beside rfl (List.Subset.refl _) le_rfl⟩ rfl
  · have still := over_step settled attempt move
    have same := Over.notices still
    refine .inr ⟨?_,notice,?_,accepted,opened⟩
    · change HoldsQ0 (Over addr after.notices) after
      rw [same]
      exact still
    · change handshake.notices ++ (after.notices.drop handshake.layer.notices.length).map _ = _
      rw [one,same,List.drop_length]
      rfl

theorem doMqttConnect_start (layer : LogicLayer) (task : Task) (state : XiState) {message : Message} (works : layer.working)
    (start : task.cs = .start) (made : connectMessage layer.connection = .ok message) :
    doMqttConnect layer task state none = {
      task := some {task with
        cs := .sent
        timeout := if 0 < layer.connection.connectionTimeout then some .timeout else task.timeout}
      effects := [.send message]} := by
  unfold doMqttConnect
  rw [if_neg (by rw [working_iff.mp works]; exact Bool.false_ne_true)]
  simp only [start,made]

/-- CONNECT is handed to the codec layer at once. -/
theorem running_of_connect {message : Message} (idle : layer.Idle)
    (made : connectMessage layer.connection = .ok message) :
    ∃ task, Running layer.nextAddr (layer.connect .ok).notices (layer.connect .ok) task := by
  have works : layer.working := by
    refine ⟨?_,idle.hasData⟩
    rw [LogicLayer.notOperational,idle.layerState]
    rfl
  let task : Task := {connectTask layer.nextAddr with
    cs := .sent
    timeout := if 0 < layer.connection.connectionTimeout then some .timeout else none}
  let queued : LogicLayer := {layer with
    nextAddr := layer.nextAddr + 1
    q0TasksQueue := connectTask layer.nextAddr :: layer.q0TasksQueue}
  let next : LogicLayer := {layer with
    nextAddr := layer.nextAddr + 1
    currentQ0Task := some task
    sending := layer.sending ++ [(getMessageId message,message.common.type)]
    effects := layer.effects ++ [.send message]
    fault := layer.fault || false}
  have sends : queued.executeQ0 (connectTask layer.nextAddr) .ok none =
      {task := some task,effects := [.send message]} :=
    doMqttConnect_start queued _ .ok works rfl made
  have pushed : layer.connect .ok =
      {layer with nextAddr := layer.nextAddr + 1}.queueQ0Task (connectTask layer.nextAddr) := by
    unfold LogicLayer.connect LogicLayer.push
    rw [if_neg (not_not.mpr rfl)]
    split
    · exact absurd works (not_working_iff.mpr ‹_›)
    · rw [if_neg (by decide)]
      rfl
  have runs : queued.runQ0Tasks (connectTask layer.nextAddr :: layer.q0TasksQueue) = next := by
    unfold LogicLayer.runQ0Tasks
    rw [if_neg (fun waits => waits.2 rfl)]
    simp only [show (connectTask layer.nextAddr).msg = none from rfl,sends]
    rfl
  have connected : layer.connect .ok = next := by
    rw [pushed]
    unfold LogicLayer.queueQ0Task
    simp only
    split
    · rename_i current same
      exact absurd (same.symm.trans idle.current) (Option.some_ne_none current)
    · exact runs
  rw [connected]
  refine ⟨task,rfl,rfl,rfl,.inl rfl,rfl,idle.layerState,idle.hasData,rfl,?_,?_,?_,Nat.lt_succ_self _⟩
  · intro _ none
    exact absurd none.symm (Option.some_ne_none _)
  · intro other member
    exact ⟨(idle.queue other member).1,(idle.queue other member).2.ne⟩
  · intro member
    exact absurd (idle.orphans _ member) (Nat.lt_irrefl _)

/-- The history of a handshake from its CONNECT on: as long as nothing comes out of order for the CONNECT
task, the layer above is told the outcome once and truly. -/
theorem handshake_told {message : Message} {events : List Event} (idle : layer.Idle)
    (made : connectMessage layer.connection = .ok message)
    (orderly : Runs.Admissible Handshake.step
      (fun handshake event => handshake.layer.fault = false →
        event.sameAttempt = true ∧ orderly handshake.layer event) {layer := layer.connect .ok} events) :
    Runs.Always Handshake.step (Handshake.Told layer.nextAddr) {layer := layer.connect .ok} events := by
  obtain ⟨task,running⟩ := running_of_connect idle made
  have start : Handshake.Sound layer.nextAddr {layer := layer.connect .ok} := .inl ⟨task,running,rfl,rfl⟩
  have always := Runs.always_of_step (fun _ _ sound orderly => sound_step sound orderly) start orderly
  exact always.mono fun _ sound => sound.isTold

theorem handshake_told_accepted :
    Runs.Always Handshake.step (Handshake.Told 0) {layer := (openingLayer {}).connect .ok}
      [.confirm 0 .connect true,.pull acceptingConnack,.close .ok] := by
  have idle : (openingLayer {}).Idle :=
    ⟨rfl,rfl,rfl,fun _ member => absurd member List.not_mem_nil,fun _ member => absurd member List.not_mem_nil⟩
  have written : (Runs.final Handshake.step {layer := (openingLayer {}).connect .ok}
      [.confirm 0 .connect true]).layer.currentQ0Task.all (·.cs = .reply) = true := by
    decide +kernel
  refine handshake_told idle rfl ⟨fun _ => ⟨rfl,trivial⟩,fun _ => ⟨rfl,?_⟩,fun _ => ⟨rfl,trivial⟩,trivial⟩
  intro _ _ task same _
  refine ⟨?_,rfl⟩
  rw [Runs.final_cons,Runs.final_nil] at written
  rw [same] at written
  exact of_decide_eq_true written

/-- A message that comes before the confirmation of CONNECT is taken for a failed write, and the state in
which it comes is passed on: the layer above is told that it is connected. -/
theorem handshake_told_too_early :
    ¬ (Runs.final Handshake.step {layer := (openingLayer {}).connect .ok} [.pull pingresp]).Told 0 := by
  have none : (Runs.final Handshake.step {layer := (openingLayer {}).connect .ok}
      [.pull pingresp]).layer.currentQ0Task = none := by
    decide +kernel
  intro told
  have settled : ¬ (Runs.final Handshake.step {layer := (openingLayer {}).connect .ok} [.pull pingresp]).layer.connecting := by
    rintro ⟨task,current,_⟩
    exact absurd (none.symm.trans current).symm (Option.some_ne_none task)
  obtain ⟨notice,one,accepted,_⟩ := told.2 settled
  have heard : (Runs.final Handshake.step {layer := (openingLayer {}).connect .ok} [.pull pingresp]).notices =
      [⟨.ok,.opening,false⟩] := by
    decide +kernel
  rw [one] at heard
  injection heard with same
  subst same
  exact absurd (accepted.mp rfl) Bool.false_ne_true

end Running

end XivelyClient.Mqtt.Logic
