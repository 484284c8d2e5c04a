import XivelyClient.Mqtt.Logic.Subscriptions

/-! What the user is told of a publish at QoS 1, and what its PUBACK does. -/
namespace XivelyClient.Mqtt.Logic

/-- What the callback of the task at an address is told. -/
def Effect.reports (addr : Nat) : Effect → Option XiState
  | .usersCallback task _ state => if task = addr then some state else none
  | _ => none

namespace LogicLayer

def reports (layer : LogicLayer) (addr : Nat) : List XiState := observe (Effect.reports addr) layer.effects

/-- The tasks in the queue and those that the session keeps. -/
def unacknowledged (layer : LogicLayer) : List Task := layer.q12TasksQueue ++ layer.copyOfQ12UnackedMessagesQueue

/-- How often the address is among them. -/
def occurs (layer : LogicLayer) (addr : Nat) : Nat := layer.unacknowledged.countP (·.addr = addr)

/-- The address is not one of the other tasks'. -/
def Spares (layer : LogicLayer) (addr : Nat) : Prop := Elsewhere addr layer layer.currentQ0Task layer.q0TasksQueue

end LogicLayer

/-- A task waits once at most, and nobody is told anything of it before it goes. -/
structure Alone (addr : Nat) (layer : LogicLayer) : Prop where
  once : layer.occurs addr ≤ 1
  mine : 0 < layer.occurs addr → addr < layer.nextAddr ∧ layer.Spares addr ∧ layer.reports addr = []
  unused : layer.nextAddr ≤ addr → layer.Spares addr ∧ layer.reports addr = []

/-- The task has gone for good. -/
structure Gone (addr : Nat) (layer : LogicLayer) : Prop where
  old : addr < layer.nextAddr
  absent : layer.occurs addr = 0
  spares : layer.Spares addr

/-- What becomes of an address that is not given out in between: nobody is told of a task that was gone before or is still
there. -/
structure Passes (addr : Nat) (before after : LogicLayer) : Prop where
  nextAddr : before.nextAddr ≤ after.nextAddr
  occurs : after.occurs addr ≤ before.occurs addr
  kept : addr < before.nextAddr ∨ after.nextAddr ≤ addr → before.Spares addr → after.Spares addr ∧
    (before.occurs addr = 0 ∨ 0 < after.occurs addr → after.reports addr = before.reports addr)

section Passing

variable {before between after layer : LogicLayer} {addr : Nat} {task changed : Task} {allocs : Allocations} {state : XiState}
  {msg : Option Message} {effects : List Effect}

theorem Passes.refl (layer : LogicLayer) : Passes addr layer layer := ⟨le_rfl,le_rfl,fun _ spares => ⟨spares,fun _ => rfl⟩⟩

theorem Passes.trans (first : Passes addr before between) (second : Passes addr between after) : Passes addr before after := by
  refine ⟨first.nextAddr.trans second.nextAddr,second.occurs.trans first.occurs,fun old spares => ?_⟩
  obtain ⟨spares,same⟩ := first.kept (old.imp_right second.nextAddr.trans) spares
  obtain ⟨spares,same'⟩ := second.kept (old.imp_left first.nextAddr.trans_lt') spares
  refine ⟨spares,fun either => ?_⟩
  have waiting := first.occurs
  have waiting' := second.occurs
  rw [same' (by omega),same (by omega)]

theorem Alone.passes (alone : Alone addr before) (passes : Passes addr before after) : Alone addr after := by
  refine ⟨passes.occurs.trans alone.once,fun present => ?_,fun free => ?_⟩
  · obtain ⟨old,spares,untold⟩ := alone.mine (present.trans_le passes.occurs)
    obtain ⟨spares,same⟩ := passes.kept (.inl old) spares
    exact ⟨old.trans_le passes.nextAddr,spares,(same (.inr present)).trans untold⟩
  · obtain ⟨spares,untold⟩ := alone.unused (passes.nextAddr.trans free)
    obtain ⟨spares,same⟩ := passes.kept (.inr free) spares
    have absent : before.occurs addr = 0 := by
      refine Nat.eq_zero_of_not_pos fun present => ?_
      exact absurd (alone.mine present).1 (Nat.not_lt.mpr (passes.nextAddr.trans free))
    exact ⟨spares,(same (.inl absent)).trans untold⟩

theorem Gone.passes (gone : Gone addr before) (passes : Passes addr before after) :
    Gone addr after ∧ after.reports addr = before.reports addr := by
  obtain ⟨spares,same⟩ := passes.kept (.inl gone.old) gone.spares
  exact ⟨⟨gone.old.trans_le passes.nextAddr,Nat.le_zero.mp (gone.absent ▸ passes.occurs),spares⟩,same (.inl gone.absent)⟩

theorem reports_own (addr : Nat) : ∀ effect : Effect, effect.about ≠ some addr → effect.reports addr = none := by
  intro effect away
  cases effect with
  | usersCallback task callback state => exact if_neg fun own => away (congrArg some own)
  | _ => rfl

theorem Passes.beside (same : BesideQ12 before after) : Passes addr before after := by
  have waiting : after.occurs addr = before.occurs addr := by
    unfold LogicLayer.occurs LogicLayer.unacknowledged
    rw [same.q12TasksQueue,same.copies]
  refine ⟨same.nextAddr,waiting.le,fun old spares => ?_⟩
  obtain ⟨spares,mentioned⟩ := same.elsewhere addr old spares
  refine ⟨spares,fun _ => ?_⟩
  unfold LogicLayer.reports
  rw [observe_mentions (reports_own addr) after.effects,mentioned,← observe_mentions (reports_own addr)]

@[simp] theorem reports_freeMessage : observe (Effect.reports addr) (freeMessage msg) = [] := by
  cases msg <;> rfl

@[simp] theorem reports_freeData : observe (Effect.reports addr) task.freeData = [] := by
  unfold Task.freeData
  split <;> rfl

@[simp] theorem reports_free : observe (Effect.reports addr) task.free = [] := by
  rw [Task.free,observe_append,reports_freeData]
  rfl

theorem reports_freeTasks (queue : List Task) : observe (Effect.reports addr) (LogicLayer.freeTasks queue) = [] := by
  induction queue with
  | nil => rfl
  | cons task queue ih =>
    unfold LogicLayer.freeTasks at ih ⊢
    rw [List.flatMap_cons,observe_append,reports_free,ih]
    rfl

theorem reports_freeHandlers (handlers : List SubscribeData) :
    observe (Effect.reports addr) (LogicLayer.freeHandlers handlers) = [] := by
  induction handlers with
  | nil => rfl
  | cons data handlers ih => exact ih

theorem reports_callback_other (away : task.addr ≠ addr) : observe (Effect.reports addr) (task.deferUsersCallback state) = [] := by
  unfold Task.deferUsersCallback
  split
  · have silent (callback : Nat) : (Effect.usersCallback task.addr callback state).reports addr = none := if_neg away
    rw [observe_cons,silent]
    rfl
  · rfl

theorem publishQ1Send_reports_other (away : task.addr ≠ addr) (dup : Nat) :
    observe (Effect.reports addr) (publishQ1Send task dup).effects = [] := by
  unfold publishQ1Send publishQ1Error
  repeat' split
  all_goals simp [Outcome.abort,Effect.reports,reports_callback_other away]

theorem publishQ1Reply_reports_other (away : task.addr ≠ addr) :
    observe (Effect.reports addr) (publishQ1Reply task state msg).effects = [] := by
  unfold publishQ1Reply publishQ1Error
  repeat' split
  all_goals simp [Outcome.abort,Effect.reports,reports_callback_other away]

theorem subscribeSend_reports (dup : Nat) : observe (Effect.reports addr) (subscribeSend allocs task dup).effects = [] := by
  unfold subscribeSend subscribeError
  repeat' split
  all_goals simp [Outcome.abort,Effect.reports]

theorem subscribeReply_reports : observe (Effect.reports addr) (subscribeReply layer allocs task state msg).effects = [] := by
  unfold subscribeReply subscribeSuback subscribeError
  simp only
  repeat' split
  all_goals simp [Outcome.abort,Effect.reports]

theorem doMqttSubscribe_reports : observe (Effect.reports addr) (doMqttSubscribe layer allocs task state msg).effects = [] := by
  unfold doMqttSubscribe subscribeError
  repeat' split
  all_goals first
  | exact subscribeSend_reports _
  | exact subscribeReply_reports
  | simp [Outcome.abort]

/-- Another task than the one that is resumed is not spoken of. -/
theorem executeQ12_reports_other (away : task.addr ≠ addr) :
    observe (Effect.reports addr) (layer.executeQ12 allocs task state msg).effects = [] := by
  unfold LogicLayer.executeQ12
  split
  · unfold doMqttPublishQ1
    repeat' split
    all_goals first
    | exact publishQ1Send_reports_other (by exact away) _
    | exact publishQ1Reply_reports_other (by exact away)
    | simp [Outcome.abort]
  · exact doMqttSubscribe_reports
  · rfl

theorem publishQ1Send_reports_waiting {result : Task} (dup : Nat) (stays : (publishQ1Send task dup).task = some result) :
    observe (Effect.reports addr) (publishQ1Send task dup).effects = [] := by
  revert stays
  unfold publishQ1Send publishQ1Error
  repeat' split
  all_goals
    intro stays
    first | exact absurd stays.symm (Option.some_ne_none result) | rfl

theorem publishQ1Reply_reports_waiting {result : Task} (stays : (publishQ1Reply task state msg).task = some result) :
    observe (Effect.reports addr) (publishQ1Reply task state msg).effects = [] := by
  revert stays
  unfold publishQ1Reply publishQ1Error
  repeat' split
  all_goals
    intro stays
    first | exact absurd stays.symm (Option.some_ne_none result) | rfl

/-- A task that stays in the queue is not spoken of. -/
theorem executeQ12_reports_waiting {result : Task} (stays : (layer.executeQ12 allocs task state msg).task = some result) :
    observe (Effect.reports addr) (layer.executeQ12 allocs task state msg).effects = [] := by
  revert stays
  unfold LogicLayer.executeQ12
  split
  · unfold doMqttPublishQ1
    repeat' split
    all_goals
      intro stays
      first
      | exact publishQ1Send_reports_waiting _ stays
      | exact publishQ1Reply_reports_waiting stays
      | simp [Outcome.abort]
  · exact fun _ => doMqttSubscribe_reports
  · exact fun _ => rfl

theorem countP_replaceTask (result : Option Task) (queue : List Task) (own : ∀ task, result = some task → task.addr = changed.addr) :
    (replaceTask changed.addr result queue).countP (·.addr = addr) =
      if result = none ∧ changed.addr = addr then 0 else queue.countP (·.addr = addr) := by
  induction queue with
  | nil => simp [replaceTask]
  | cons head queue ih =>
    unfold replaceTask at ih ⊢
    by_cases same : head.addr = changed.addr
    · cases result with
      | none =>
        rw [List.filterMap_cons_none (by rw [if_pos same]),ih]
        by_cases mine : changed.addr = addr
        · rw [if_pos ⟨rfl,mine⟩,if_pos ⟨rfl,mine⟩]
        · rw [if_neg fun both => mine both.2,if_neg fun both => mine both.2,List.countP_cons_of_neg]
          simpa [same] using mine
      | some task =>
        have stays : ¬ (some task = none ∧ changed.addr = addr) := fun both => Option.some_ne_none task both.1
        rw [if_neg stays] at ih
        rw [List.filterMap_cons_some (by rw [if_pos same]),List.countP_cons,ih,if_neg stays,List.countP_cons,own task rfl,same]
    · rw [List.filterMap_cons_some (by rw [if_neg same]),List.countP_cons,ih]
      split
      · rename_i gone
        rw [if_neg (by simpa [← gone.2] using same)]
      · rw [List.countP_cons]

/-- A queued task is resumed. -/
theorem Passes.resumeQ12 (alone : Alone changed.addr layer) (member : task ∈ layer.q12TasksQueue) (own : changed.addr = task.addr) :
    Passes addr layer (layer.resumeQ12 allocs changed state msg) := by
  have same : Undisturbed layer (layer.resumeQ12 allocs changed state msg) := .resumeQ12 allocs changed state msg
  have recv : (layer.resumeQ12 allocs changed state msg).q12RecvTasksQueue = layer.q12RecvTasksQueue :=
    LogicLayer.perform_q12RecvTasksQueue
  have waiting : (layer.resumeQ12 allocs changed state msg).occurs addr =
      (if (layer.executeQ12 allocs changed state msg).task = none ∧ changed.addr = addr then 0
        else layer.q12TasksQueue.countP (·.addr = addr)) + layer.copyOfQ12UnackedMessagesQueue.countP (·.addr = addr) := by
    unfold LogicLayer.occurs LogicLayer.unacknowledged
    rw [List.countP_append,resumeQ12_q12TasksQueue,resumeQ12_copies,countP_replaceTask]
    exact fun result taken => (executeQ12_sameJob _ _ _ _ _ result taken).addr
  have whole : layer.occurs addr = layer.q12TasksQueue.countP (·.addr = addr) +
      layer.copyOfQ12UnackedMessagesQueue.countP (·.addr = addr) := List.countP_append
  refine ⟨same.nextAddr,?_,fun _ spares => ⟨?_,fun either => ?_⟩⟩
  · rw [waiting,whole]
    split <;> omega
  · unfold LogicLayer.Spares
    rw [same.currentQ0Task,same.q0TasksQueue]
    exact ⟨spares.current,spares.queue,recv ▸ spares.recv⟩
  · unfold LogicLayer.reports
    rw [resumeQ12_effects,observe_append]
    by_cases mine : changed.addr = addr
    · subst mine
      have present : 0 < layer.q12TasksQueue.countP (·.addr = changed.addr) :=
        List.countP_pos_iff.mpr ⟨task,member,decide_eq_true own.symm⟩
      have once := alone.once
      cases stays : (layer.executeQ12 allocs changed state msg).task with
      | none =>
        rw [stays,if_pos ⟨rfl,rfl⟩] at waiting
        omega
      | some result => rw [executeQ12_reports_waiting stays,List.append_nil]
    · rw [executeQ12_reports_other mine,List.append_nil]

theorem Passes.frame (nextAddr : after.nextAddr = before.nextAddr) (waiting : after.occurs addr ≤ before.occurs addr)
    (spares : before.Spares addr → after.Spares addr) (reports : after.reports addr = before.reports addr) :
    Passes addr before after := ⟨nextAddr.ge,waiting,fun _ away => ⟨spares away,fun _ => reports⟩⟩

/-- Effects that speak of no task. -/
theorem Passes.perform (silent : observe (Effect.reports addr) effects = []) : Passes addr layer (layer.perform effects) := by
  have recv : (layer.perform effects).q12RecvTasksQueue = layer.q12RecvTasksQueue := LogicLayer.perform_q12RecvTasksQueue
  refine .frame LogicLayer.perform_nextAddr ?_ (fun away => ?_) ?_
  · unfold LogicLayer.occurs LogicLayer.unacknowledged
    rw [LogicLayer.perform_q12TasksQueue,LogicLayer.perform_copyOfQ12UnackedMessagesQueue]
  · unfold LogicLayer.Spares
    rw [LogicLayer.perform_currentQ0Task,LogicLayer.perform_q0TasksQueue]
    exact ⟨away.current,away.queue,recv ▸ away.recv⟩
  · unfold LogicLayer.reports
    rw [LogicLayer.perform_effects,observe_append,silent,List.append_nil]

/-- The stored tasks are sent again, one after the other. -/
theorem Passes.resend {rest : List Task} (alone : ∀ addr, Alone addr layer) (listed : ∀ task ∈ rest, task ∈ layer.q12TasksQueue)
    (apart : (rest.map Task.addr).Nodup) : Passes addr layer (rest.foldl (LogicLayer.setNewContextAndCallResend allocs) layer) := by
  induction rest generalizing layer with
  | nil => exact .refl layer
  | cons task rest ih =>
    rw [List.map_cons,List.nodup_cons] at apart
    rw [List.foldl_cons]
    have member := listed task (List.mem_cons_self ..)
    have turn : (∀ addr, Passes addr layer (LogicLayer.setNewContextAndCallResend allocs layer task)) ∧
        ∀ other ∈ rest, other ∈ (LogicLayer.setNewContextAndCallResend allocs layer task).q12TasksQueue := by
      unfold LogicLayer.setNewContextAndCallResend
      split
      · refine ⟨fun addr => .resumeQ12 (alone _) member rfl,fun other later => ?_⟩
        rw [resumeQ12_q12TasksQueue]
        refine mem_replaceTask_of_ne (listed other (List.mem_cons_of_mem task later)) fun same => apart.1 ?_
        exact List.mem_map.mpr ⟨other,later,same⟩
      · exact ⟨fun addr => .refl layer,fun other later => listed other (List.mem_cons_of_mem task later)⟩
    exact (turn.1 addr).trans (ih (fun addr => (alone addr).passes (turn.1 addr)) turn.2 apart.2)

theorem nodup_of_alone (alone : ∀ addr, Alone addr layer) : (layer.q12TasksQueue.map Task.addr).Nodup := by
  refine List.nodup_iff_count_le_one.mpr fun addr => ?_
  have once := (alone addr).once
  unfold LogicLayer.occurs LogicLayer.unacknowledged at once
  rw [List.countP_append] at once
  rw [List.count_eq_countP,List.countP_map]
  have same : (fun other : Nat => other == addr) ∘ Task.addr = fun task : Task => decide (task.addr = addr) := by
    funext task
    exact Bool.beq_eq_decide_eq _ _
  rw [same]
  omega

theorem Passes.init (connection : ConnectionData) : Passes addr layer (layer.init connection) := by
  have kept : (layer.init connection).currentQ0Task = layer.currentQ0Task ∧ (layer.init connection).q0TasksQueue = layer.q0TasksQueue ∧
      (layer.init connection).q12RecvTasksQueue = layer.q12RecvTasksQueue := by
    unfold LogicLayer.init
    simp only [LogicLayer.perform_currentQ0Task,LogicLayer.perform_q0TasksQueue,LogicLayer.perform_q12RecvTasksQueue]
    split <;> exact ⟨rfl,rfl,rfl⟩
  refine .frame (init_nextAddr connection) ?_ (fun away => ?_) ?_
  · unfold LogicLayer.occurs LogicLayer.unacknowledged
    rw [init_q12TasksQueue,init_copies,List.append_nil,List.countP_append]
    split <;> omega
  · unfold LogicLayer.Spares
    rw [kept.1,kept.2.1]
    exact ⟨away.current,away.queue,kept.2.2 ▸ away.recv⟩
  · unfold LogicLayer.reports LogicLayer.init
    rw [LogicLayer.perform_effects,observe_append]
    simp only
    split
    · exact List.append_nil _
    · rw [LogicLayer.perform_effects,observe_append,observe_append,reports_freeHandlers,reports_freeTasks]
      exact (List.append_nil _).trans (List.append_nil _)

theorem countP_cancelled (queue : List Task) :
    (queue.map LogicLayer.cancelTaskTimeout).countP (·.addr = addr) = queue.countP (·.addr = addr) := by
  rw [List.countP_map]
  rfl

theorem cancelled_away {queue : List Task} (away : ∀ task ∈ queue, task.addr ≠ addr) :
    ∀ task ∈ queue.map LogicLayer.cancelTaskTimeout, task.addr ≠ addr := by
  intro task member
  obtain ⟨other,listed,rfl⟩ := List.mem_map.mp member
  exact away other listed

theorem Passes.saveSession : Passes addr layer layer.saveSession := by
  have divided : layer.q12TasksQueue.countP (·.addr = addr) =
      (layer.q12TasksQueue.filter (·.sessionState = .store)).countP (·.addr = addr) +
      (layer.q12TasksQueue.filter (·.sessionState ≠ .store)).countP (·.addr = addr) := by
    induction layer.q12TasksQueue with
    | nil => rfl
    | cons task queue ih =>
      rw [List.countP_cons,ih]
      by_cases stored : task.sessionState = .store
      · rw [List.filter_cons_of_pos (by simpa using stored),List.filter_cons_of_neg (by simpa using stored),List.countP_cons]
        omega
      · rw [List.filter_cons_of_neg (by simpa using stored),List.filter_cons_of_pos (by simpa using stored),List.countP_cons]
        omega
  have saved : ((layer.q12TasksQueue.filter (·.sessionState = .store)).map ({· with context := false})).countP (·.addr = addr) =
      (layer.q12TasksQueue.filter (·.sessionState = .store)).countP (·.addr = addr) := by
    rw [List.countP_map]
    rfl
  have whole : layer.occurs addr = layer.q12TasksQueue.countP (·.addr = addr) +
      layer.copyOfQ12UnackedMessagesQueue.countP (·.addr = addr) := List.countP_append
  have kept : layer.saveSession.occurs addr = (layer.q12TasksQueue.filter (·.sessionState ≠ .store)).countP (·.addr = addr) +
      ((layer.q12TasksQueue.filter (·.sessionState = .store)).map ({· with context := false})).countP (·.addr = addr) := by
    have left : layer.saveSession.q12TasksQueue = layer.q12TasksQueue.filter (·.sessionState ≠ .store) := by
      unfold LogicLayer.saveSession
      simp only
      split <;> rfl
    unfold LogicLayer.occurs LogicLayer.unacknowledged
    rw [List.countP_append,saveSession_copies,left]
  refine .frame ?_ ?_ (fun away => ?_) ?_
  · unfold LogicLayer.saveSession
    simp only
    split <;> rfl
  · rw [kept,saved,whole,divided]
    omega
  · unfold LogicLayer.saveSession
    simp only
    split <;> exact ⟨away.current,away.queue,away.recv⟩
  · unfold LogicLayer.saveSession
    simp only
    split <;> rfl

theorem Passes.releaseSession : Passes addr layer layer.releaseSession := by
  have cancelled : Passes addr layer {layer with
      q12TasksQueue := layer.q12TasksQueue.map LogicLayer.cancelTaskTimeout
      q12RecvTasksQueue := layer.q12RecvTasksQueue.map LogicLayer.cancelTaskTimeout} := by
    refine .frame rfl ?_ (fun away => ⟨away.current,away.queue,cancelled_away away.recv⟩) rfl
    unfold LogicLayer.occurs LogicLayer.unacknowledged
    rw [List.countP_append,List.countP_append,countP_cancelled]
  have dropped (base : LogicLayer) : Passes addr base {base.perform (LogicLayer.freeHandlers base.handlersForTopics) with
      handlersForTopics := []} :=
    .trans (.perform (reports_freeHandlers _)) (.frame rfl le_rfl (fun away => ⟨away.current,away.queue,away.recv⟩) rfl)
  unfold LogicLayer.releaseSession
  refine .trans cancelled (.trans ?_ (dropped _))
  split
  · exact .saveSession
  · exact .refl _

theorem Passes.freeLayerData : Passes addr layer layer.freeLayerData := by
  unfold LogicLayer.freeLayerData
  refine .trans (.perform ?_) (.frame rfl ?_ (fun away => ⟨away.current,?_,?_⟩) rfl)
  · rw [observe_append,observe_append,reports_freeTasks,reports_freeTasks,reports_freeTasks]
    rfl
  · unfold LogicLayer.occurs LogicLayer.unacknowledged
    rw [List.countP_append,List.countP_append]
    exact Nat.add_le_add_right (Nat.zero_le _) _
  · exact fun _ member => absurd member List.not_mem_nil
  · exact fun _ member => absurd member List.not_mem_nil

theorem Passes.closeExternally (state : XiState) :
    Passes addr layer (layer.releaseSession.stopCurrentTask.freeLayerData.perform [.closeExternallyNext state]) :=
  ((Passes.releaseSession.trans (.beside beside_stopCurrentTask)).trans .freeLayerData).trans (.perform rfl)

theorem Passes.subscriptionCall : Passes addr layer layer.runSubscriptionCall := by
  unfold LogicLayer.runSubscriptionCall
  split
  · exact .refl layer
  · rename_i call calls first
    have called : Passes addr layer {layer with calls := calls} :=
      .frame rfl le_rfl (fun away => ⟨away.current,away.queue,away.recv⟩) rfl
    simp only
    split
    · exact called.trans (.perform rfl)
    · exact called

/-- A request leaves the queue alone, or it makes a task with the next address. -/
theorem pushRequest_waits (allocs : Allocations) (request : Request) :
    (∀ addr, Passes addr layer (layer.pushRequest allocs request)) ∨
    ∃ effects task, task.addr = layer.nextAddr ∧ (∀ addr, observe (Effect.reports addr) effects = []) ∧
      layer.pushRequest allocs request =
        LogicLayer.queueQ12Task ({layer with nextAddr := layer.nextAddr + 1}.perform effects) allocs task := by
  have own (task : Task) (addr : task.addr = layer.nextAddr) : task.free.all (Effect.ofTask layer.nextAddr) = true :=
    addr ▸ ofTask_free task
  unfold LogicLayer.pushRequest LogicLayer.push
  split
  · refine .inl fun addr => .beside (beside_refused (own _ ?_))
    cases request <;> rfl
  rw [if_neg (by decide)]
  have queued (task : Task) (addr : task.addr = layer.nextAddr) :
      BesideQ12 layer (LogicLayer.queueQ0Task {layer with nextAddr := layer.nextAddr + 1} task) :=
    queueQ0Task_holds (stable_beside layer) (BesideIn.enqueue beside_next addr.ge (addr.trans_lt (Nat.lt_succ_self _)))
  cases request with
  | publish topic data qos retain callback =>
    cases qos with
    | atMostOnce =>
      exact .inl fun addr => .beside (queued ((Request.publish topic data .atMostOnce retain callback).make layer.nextAddr) rfl)
    | atLeastOnce => exact .inr ⟨[],(Request.publish topic data .atLeastOnce retain callback).make layer.nextAddr,rfl,fun _ => rfl,rfl⟩
    | exactlyOnce =>
      exact .inr ⟨_,{(Request.publish topic data .exactlyOnce retain callback).make layer.nextAddr with data := none},rfl,
        fun _ => reports_freeData,rfl⟩
  | subscribe topic qos handler session =>
    exact .inr ⟨[],(Request.subscribe topic qos handler session).make layer.nextAddr,rfl,fun _ => rfl,rfl⟩
  | shutdown =>
    simp only [Request.make]
    split
    · exact .inl fun addr => .beside (beside_refused (own _ rfl))
    · exact .inl fun addr => .beside (queued (Request.shutdown.make layer.nextAddr) rfl)

/-- The task that a request makes is alone, and the others stay so. -/
theorem alone_queued (alone : ∀ addr, Alone addr layer) (own : task.addr = layer.nextAddr)
    (silent : ∀ addr, observe (Effect.reports addr) effects = []) :
    (∀ addr, Alone addr (LogicLayer.queueQ12Task ({layer with nextAddr := layer.nextAddr + 1}.perform effects) allocs task)) ∧
    ∀ addr < layer.nextAddr,
      Passes addr layer (LogicLayer.queueQ12Task ({layer with nextAddr := layer.nextAddr + 1}.perform effects) allocs task) := by
  have base (addr : Nat) : Passes addr layer ({layer with nextAddr := layer.nextAddr + 1}.perform effects) :=
    .trans (.beside beside_next) (.perform (silent addr))
  have next : ({layer with nextAddr := layer.nextAddr + 1}.perform effects).nextAddr = layer.nextAddr + 1 := LogicLayer.perform_nextAddr
  have free : layer.occurs layer.nextAddr = 0 :=
    Nat.eq_zero_of_not_pos fun present => absurd ((alone _).mine present).1 (Nat.lt_irrefl _)
  have unused : ({layer with nextAddr := layer.nextAddr + 1}.perform effects).Spares layer.nextAddr ∧
      ({layer with nextAddr := layer.nextAddr + 1}.perform effects).reports layer.nextAddr = [] := by
    obtain ⟨away,untold⟩ := (alone layer.nextAddr).unused le_rfl
    have performed : Passes layer.nextAddr {layer with nextAddr := layer.nextAddr + 1} _ := .perform (silent layer.nextAddr)
    obtain ⟨spares,same⟩ := performed.kept (.inl (Nat.lt_succ_self _)) ⟨away.current,away.queue,away.recv⟩
    exact ⟨spares,(same (.inl free)).trans untold⟩
  have absent : ({layer with nextAddr := layer.nextAddr + 1}.perform effects).occurs layer.nextAddr = 0 := by
    exact Nat.le_zero.mp ((base layer.nextAddr).occurs.trans (Nat.le_zero.mpr free))
  generalize ({layer with nextAddr := layer.nextAddr + 1} : LogicLayer).perform effects = between at *
  let queued : LogicLayer := {between with
    lastMsgId := between.lastMsgId + 1
    q12TasksQueue := between.q12TasksQueue ++ [{task with msgId := between.lastMsgId + 1}]}
  have count (addr : Nat) : queued.occurs addr = between.occurs addr + if task.addr = addr then 1 else 0 := by
    unfold LogicLayer.occurs LogicLayer.unacknowledged
    rw [List.countP_append,List.countP_append,List.countP_append,List.countP_singleton]
    simp only [decide_eq_true_eq]
    exact Nat.add_right_comm _ _ _
  have others (addr : Nat) (away : addr ≠ layer.nextAddr) : Passes addr layer queued := by
    refine (base addr).trans (.frame rfl ?_ (fun spares => ⟨spares.current,spares.queue,spares.recv⟩) rfl)
    rw [count,if_neg fun mine => away (mine.symm.trans own)]
    rfl
  have alone' (addr : Nat) : Alone addr queued := by
    by_cases mine : addr = layer.nextAddr
    · subst mine
      have one : queued.occurs layer.nextAddr = 1 := by rw [count,absent,if_pos own]
      have spares : queued.Spares layer.nextAddr := ⟨unused.1.current,unused.1.queue,unused.1.recv⟩
      exact ⟨one.le,fun _ => ⟨next ▸ Nat.lt_succ_self _,spares,unused.2⟩,fun _ => ⟨spares,unused.2⟩⟩
    · exact (alone addr).passes (others addr mine)
  have member : {task with msgId := between.lastMsgId + 1} ∈ queued.q12TasksQueue := List.mem_append_right _ (List.mem_singleton_self _)
  have resumed (addr : Nat) : Passes addr queued (queued.resumeQ12 allocs {task with msgId := between.lastMsgId + 1} .ok task.msg) :=
    .resumeQ12 (alone' _) member rfl
  unfold LogicLayer.queueQ12Task
  simp only
  split
  · exact ⟨fun addr => (alone' addr).passes (resumed addr),fun addr old => (others addr old.ne).trans (resumed addr)⟩
  · exact ⟨alone',fun addr old => others addr old.ne⟩

/-- One call, seen from every address. -/
theorem alone_step (alone : ∀ addr, Alone addr layer) (running : layer.fault = false) (event : Event) :
    (∀ addr, Alone addr (step allocs layer event)) ∧ ∀ addr < layer.nextAddr, Passes addr layer (step allocs layer event) := by
  have whole (passes : ∀ addr, Passes addr layer (step allocs layer event)) :
      (∀ addr, Alone addr (step allocs layer event)) ∧ ∀ addr < layer.nextAddr, Passes addr layer (step allocs layer event) :=
    ⟨fun addr => (alone addr).passes (passes addr),fun addr _ => passes addr⟩
  by_cases pushed : ∃ request, event = .push request
  · obtain ⟨request,rfl⟩ := pushed
    have called : step allocs layer (.push request) = layer.pushRequest allocs request := by
      unfold step
      rw [if_neg (by rw [running]; exact Bool.false_ne_true)]
    rcases pushRequest_waits allocs request with passes | ⟨effects,task,own,silent,same⟩
    · exact whole (called ▸ passes)
    · rw [called,same]
      exact alone_queued alone own silent
  · have move := step_cases12 allocs running event
    generalize step allocs layer event = after at *
    refine whole fun addr => ?_
    cases move with
    | beside same => exact .beside same
    | push q12 works same next operational connection => exact absurd ⟨_,rfl⟩ pushed
    | @confirm msgId type written task works positive toServer found =>
      have erased (addr : Nat) : Passes addr layer {layer with sending := layer.sending.erase (msgId,type)} :=
        .frame rfl le_rfl (fun away => ⟨away.current,away.queue,away.recv⟩) rfl
      exact (erased addr).trans (.resumeQ12 ((alone _).passes (erased _)) (List.mem_of_find?_eq_some found) rfl)
    | unheard positive toServer past => exact .frame rfl le_rfl (fun away => ⟨away.current,away.queue,away.recv⟩) rfl
    | pull works plain positive toServer found => exact .resumeQ12 (alone _) (List.mem_of_find?_eq_some found) rfl
    | timeout found pending => exact .resumeQ12 (alone _) (List.mem_of_find?_eq_some found) rfl
    | postConnect data => exact .trans (.resend alone (fun _ member => member) (nodup_of_alone alone)) (.perform rfl)
    | init connection => exact .init connection
    | closeExternally past data => exact .closeExternally _
    | subscriptionCall => exact .subscriptionCall

theorem alone_stepWith (alone : ∀ addr, Alone addr layer) (call : Allocations × Event) :
    (∀ addr, Alone addr (stepWith layer call)) ∧ ∀ addr < layer.nextAddr, Passes addr layer (stepWith layer call) := by
  cases fault : layer.fault with
  | true =>
    have ended : stepWith layer call = layer := if_pos fault
    rw [ended]
    exact ⟨alone,fun addr _ => .refl layer⟩
  | false => exact alone_step alone fault call.2

theorem alone_start (addr : Nat) : Alone addr {} :=
  ⟨Nat.zero_le 1,fun present => absurd present (Nat.lt_irrefl 0),fun _ => ⟨⟨fun _ same => (Option.some_ne_none _ same.symm).elim,
    fun _ member => absurd member List.not_mem_nil,fun _ member => absurd member List.not_mem_nil⟩,rfl⟩⟩

theorem alone_run (calls : List (Allocations × Event)) : ∀ addr, Alone addr (Runs.final stepWith {} calls) := by
  have always : Runs.Always stepWith (fun layer => ∀ addr, Alone addr layer) {} calls :=
    Runs.always_of_invariant (fun layer call alone => (alone_stepWith alone call).1) alone_start
  exact always.last

end Passing

section Acknowledged

variable {layer : LogicLayer} {task : Task} {msg : Message} {allocs : Allocations} {addr : Nat}

/-- A task that is gone stays away, and nobody is told of it any more. -/
theorem gone_run {told : List XiState} (alone : ∀ addr, Alone addr layer) (gone : Gone addr layer) (reports : layer.reports addr = told)
    (calls : List (Allocations × Event)) :
    Runs.Always stepWith (fun later => later.reports addr = told ∧ ∀ other ∈ later.unacknowledged, other.addr ≠ addr) layer calls := by
  have always : Runs.Always stepWith (fun layer => (∀ addr, Alone addr layer) ∧ Gone addr layer ∧ layer.reports addr = told)
      layer calls := Runs.always_of_invariant (fun layer call kept => ?_) ⟨alone,gone,reports⟩
  · refine always.mono fun later kept => ⟨kept.2.2,fun other member own => ?_⟩
    exact absurd kept.2.1.absent (Nat.pos_iff_ne_zero.mp (List.countP_pos_iff.mpr ⟨other,member,decide_eq_true own⟩))
  · obtain ⟨alone,gone,reports⟩ := kept
    obtain ⟨alone',passes⟩ := alone_stepWith alone call
    obtain ⟨gone',same⟩ := gone.passes (passes addr gone.old)
    exact ⟨alone',gone',same.trans reports⟩

/-- The task's callback is told that all went well and the message is freed, and that is all; from then on nobody is told anything
of the task, and it is in no queue from which it could send its message. -/
structure Acknowledged (layer : LogicLayer) (task : Task) (msg : Message) : Prop where
  effects : (stepWith layer ({},.pull msg)).effects =
    layer.effects ++ (task.deferUsersCallback .ok ++ [.freeMessage msg] ++ task.free)
  ever : ∀ events, Runs.Always stepWith (fun later => later.reports task.addr = (task.callback.map fun _ => .ok).toList ∧
    ∀ other ∈ later.unacknowledged, other.addr ≠ task.addr) (stepWith layer ({},.pull msg)) (allocated events)

theorem reports_callback (state : XiState) :
    observe (Effect.reports task.addr) (task.deferUsersCallback state) = (task.callback.map fun _ => state).toList := by
  unfold Task.deferUsersCallback
  cases task.callback with
  | none => rfl
  | some callback =>
    have said : (Effect.usersCallback task.addr callback state).reports task.addr = some state := if_pos rfl
    rw [observe_cons,said]
    rfl

theorem executeQ12_acknowledged (works : layer.working) (publish : task.scenario = .publish) (qos : task.qos = .atLeastOnce)
    (puback : msg.common.type = .puback) (context : task.context = true) (reply : task.cs = .reply) :
    layer.executeQ12 allocs task .ok (some msg) =
      {task := none,effects := task.deferUsersCallback .ok ++ [.freeMessage msg] ++ task.free} := by
  unfold LogicLayer.executeQ12
  rw [publish,qos]
  simp only
  unfold doMqttPublishQ1
  rw [context,working_iff.mp works,reply]
  simp only [Bool.not_true,Bool.false_eq_true,if_false,reduceCtorEq]
  unfold publishQ1Reply
  rw [if_neg fun other => other rfl]
  simp only
  rw [if_neg fun other => other puback]
  rfl

theorem pull_puback (running : layer.fault = false) (works : layer.working) (puback : msg.common.type = .puback)
    (own : getMessageId msg = task.msgId) (positive : task.msgId ≠ 0)
    (found : findTask task.msgId layer.q12TasksQueue = some task) : stepWith layer (allocs,.pull msg) =
      layer.resumeQ12 allocs {task with msg := some msg} .ok (some msg) := by
  unfold stepWith step
  rw [if_neg (by rw [running]; exact Bool.false_ne_true)]
  change layer.pull allocs msg = _
  unfold LogicLayer.pull
  rw [if_neg (by rw [working_iff.mp works]; exact Bool.false_ne_true),if_neg (by rw [puback]; exact MqttType.noConfusion),
    if_pos (by rw [own]; exact UInt16.pos_iff_ne_zero.mpr positive),puback,own]
  simp only [classMsgTypeReceiving,found]

/-- A PUBACK for the task that waits for it ends the task. -/
theorem acknowledged (alone : ∀ addr, Alone addr layer) (running : layer.fault = false) (works : layer.working)
    (publish : task.scenario = .publish) (qos : task.qos = .atLeastOnce) (puback : msg.common.type = .puback)
    (own : getMessageId msg = task.msgId) (positive : task.msgId ≠ 0)
    (found : findTask task.msgId layer.q12TasksQueue = some task) (context : task.context = true) (reply : task.cs = .reply) :
    Acknowledged layer task msg := by
  have member : task ∈ layer.q12TasksQueue := List.mem_of_find?_eq_some found
  have pulled : stepWith layer ({},.pull msg) = _ := pull_puback running works puback own positive found
  have ends : layer.executeQ12 {} {task with msg := some msg} .ok (some msg) =
      {task := none,effects := task.deferUsersCallback .ok ++ [.freeMessage msg] ++ task.free} :=
    executeQ12_acknowledged works publish qos puback context reply
  have effects : (stepWith layer ({},.pull msg)).effects =
      layer.effects ++ (task.deferUsersCallback .ok ++ [.freeMessage msg] ++ task.free) := by
    rw [pulled,resumeQ12_effects,ends]
  obtain ⟨alone',passes⟩ := @alone_stepWith layer alone ({},.pull msg)
  have queue : 0 < layer.q12TasksQueue.countP (·.addr = task.addr) := List.countP_pos_iff.mpr ⟨task,member,decide_eq_true rfl⟩
  have whole : layer.occurs task.addr = layer.q12TasksQueue.countP (·.addr = task.addr) +
      layer.copyOfQ12UnackedMessagesQueue.countP (·.addr = task.addr) := List.countP_append
  have once := (alone task.addr).once
  obtain ⟨old,spares,untold⟩ := (alone task.addr).mine (by omega)
  have absent : (stepWith layer ({},.pull msg)).occurs task.addr = 0 := by
    have rest : (replaceTask task.addr none layer.q12TasksQueue).countP (·.addr = task.addr) = 0 := by
      rw [countP_replaceTask none layer.q12TasksQueue fun _ taken => (Option.some_ne_none _ taken.symm).elim,if_pos ⟨rfl,rfl⟩]
    unfold LogicLayer.occurs LogicLayer.unacknowledged
    rw [List.countP_append,pulled,resumeQ12_q12TasksQueue,resumeQ12_copies,ends,rest]
    omega
  have gone : Gone task.addr (stepWith layer ({},.pull msg)) :=
    ⟨old.trans_le (passes task.addr old).nextAddr,absent,((passes task.addr old).kept (.inl old) spares).1⟩
  have told : (stepWith layer ({},.pull msg)).reports task.addr = (task.callback.map fun _ => .ok).toList := by
    unfold LogicLayer.reports at untold ⊢
    rw [effects,observe_append,untold,observe_append,observe_append,reports_callback,reports_free]
    exact (List.append_nil _).trans (List.append_nil _)
  exact ⟨effects,fun events => gone_run alone' gone told (allocated events)⟩

theorem publishQ1Send_frees_none (dup : Nat) : Effect.freeMessage msg ∉ (publishQ1Send task dup).effects := by
  have data : Effect.freeMessage msg ∉ task.freeData := by
    unfold Task.freeData
    split <;> simp
  have callback (state : XiState) : Effect.freeMessage msg ∉ task.deferUsersCallback state := by
    unfold Task.deferUsersCallback
    split <;> simp
  unfold publishQ1Send publishQ1Error
  repeat' split
  all_goals simp [Outcome.abort,freeMessage,Task.free,data,callback]

/-- Only a task that waits for its PUBACK frees it and leaves. -/
theorem executeQ12_awaited (publish : task.scenario = .publish) (qos : task.qos = .atLeastOnce)
    (leaves : (layer.executeQ12 allocs task .ok (some msg)).task = none)
    (frees : Effect.freeMessage msg ∈ (layer.executeQ12 allocs task .ok (some msg)).effects) :
    task.context = true ∧ task.cs = .reply := by
  revert leaves frees
  unfold LogicLayer.executeQ12
  rw [publish,qos]
  simp only
  unfold doMqttPublishQ1
  cases context : task.context with
  | false => exact fun leaves => absurd leaves (Option.some_ne_none _)
  | true =>
    rw [if_neg (by decide)]
    split
    · exact fun leaves => absurd leaves (Option.some_ne_none _)
    · cases cs : task.cs with
      | start =>
        simp only
        split
        · exact fun leaves => absurd leaves (Option.some_ne_none _)
        · exact fun _ frees => absurd frees (publishQ1Send_frees_none _)
      | retry =>
        simp only
        split
        · exact fun leaves => absurd leaves (Option.some_ne_none _)
        · exact fun _ frees => absurd frees (publishQ1Send_frees_none _)
      | sent => exact fun _ frees => absurd frees (publishQ1Send_frees_none _)
      | reply => exact fun _ _ => ⟨rfl,rfl⟩

theorem awaited_of_acknowledged (alone : ∀ addr, Alone addr layer) (running : layer.fault = false)
    (queued : task ∈ layer.q12TasksQueue) (publish : task.scenario = .publish) (qos : task.qos = .atLeastOnce)
    (own : getMessageId msg = task.msgId) (ends : Acknowledged layer task msg) :
    layer.working ∧ task.msgId ≠ 0 ∧ findTask task.msgId layer.q12TasksQueue = some task ∧ task.context = true ∧ task.cs = .reply := by
  have effects : (step {} layer (.pull msg)).effects = _ := ends.effects
  have gone : ∀ other ∈ (step {} layer (.pull msg)).q12TasksQueue, other.addr ≠ task.addr :=
    fun other member => (ends.ever []).2 other (List.mem_append_left _ member)
  have move := step_cases12 {} running (.pull msg)
  generalize step {} layer (.pull msg) = after at *
  cases move with
  | beside same => exact absurd rfl (gone task (same.q12TasksQueue ▸ queued))
  | @pull _ other works plain positive toServer found =>
    have member := List.mem_of_find?_eq_some found
    rw [resumeQ12_q12TasksQueue] at gone
    by_cases same : other.addr = task.addr
    · -- the addresses differ, so the task itself was found
      have same := List.inj_on_of_nodup_map (nodup_of_alone alone) member queued same
      subst same
      rw [resumeQ12_effects] at effects
      have effects := List.append_cancel_left effects
      have leaves : (layer.executeQ12 {} {other with msg := some msg} .ok (some msg)).task = none := by
        cases stays : (layer.executeQ12 {} {other with msg := some msg} .ok (some msg)).task with
        | none => rfl
        | some result =>
          rw [stays] at gone
          refine absurd ?_ (gone result (List.mem_filterMap.mpr ⟨other,member,if_pos rfl⟩))
          exact (executeQ12_sameJob _ _ _ _ _ result stays).addr
      have frees : Effect.freeMessage msg ∈ (layer.executeQ12 {} {other with msg := some msg} .ok (some msg)).effects := by
        rw [effects]
        simp
      obtain ⟨context,reply⟩ := @executeQ12_awaited layer {other with msg := some msg} msg {} publish qos leaves frees
      rw [own] at found positive
      exact ⟨works,UInt16.pos_iff_ne_zero.mp positive,found,context,reply⟩
    · exact absurd rfl (gone task (mem_replaceTask_of_ne queued fun clash => same clash.symm))

/-- A PUBACK acknowledges the publish that has its id exactly if the layer works, the task is the first with the id, and it has a
connection on which it waits for the PUBACK. -/
theorem puback_acknowledges (events : List Event) (running : (Runs.final stepWith {} (allocated events)).fault = false)
    (queued : task ∈ (Runs.final stepWith {} (allocated events)).q12TasksQueue) (publish : task.scenario = .publish)
    (qos : task.qos = .atLeastOnce) (puback : msg.common.type = .puback) (own : getMessageId msg = task.msgId) :
    Acknowledged (Runs.final stepWith {} (allocated events)) task msg ↔ (Runs.final stepWith {} (allocated events)).working ∧ task.msgId ≠ 0 ∧
      findTask task.msgId (Runs.final stepWith {} (allocated events)).q12TasksQueue = some task ∧ task.context = true ∧ task.cs = .reply := by
  have alone := alone_run (allocated events)
  constructor
  · exact awaited_of_acknowledged alone running queued publish qos own
  · rintro ⟨works,positive,found,context,reply⟩
    exact acknowledged alone running works publish qos puback own positive found context reply

/-- A publish on an open connection, and what follows. -/
def published (events : List Event) : List Event :=
  openedConnection {keepaliveTimeout := 10} ++ .push (.publish [116] (.ofBytes .managed [1]) .atLeastOnce 0 (some 0)) :: events

/-- The task of that publish, once its message is written. -/
def waitingPublish : Task := {
  addr := 1
  timeout := some .timeout
  callback := some 0
  scenario := .publish
  qos := .atLeastOnce
  data := some (.publish ⟨[116],.ofBytes .managed [1],0⟩)
  sessionState := .store
  cs := .reply
  msgId := 1}

theorem puback_acknowledges_waiting :
    Acknowledged (Runs.final stepWith {} (allocated (published [.confirm 1 .publish true]))) waitingPublish strayPuback :=
  (puback_acknowledges _ (by decide +kernel) (by decide +kernel) rfl rfl rfl rfl).mpr (by decide +kernel)

/-- A PUBLISH with the id was handed to the codec layer. -/
def LogicLayer.transmitted (layer : LogicLayer) (msgId : UInt16) : Bool := layer.effects.any fun
  | .send message => message.common.type = .publish && getMessageId message = msgId
  | _ => false

/-- A PUBACK that comes before the codec layer has confirmed the message is taken for a failed write. -/
theorem puback_lost : ¬ ∀ (events : List Event) (task : Task) (msg : Message),
    task ∈ (Runs.final stepWith {} (allocated events)).q12TasksQueue → task.scenario = .publish → task.qos = .atLeastOnce →
    (Runs.final stepWith {} (allocated events)).transmitted task.msgId = true → msg.common.type = .puback → getMessageId msg = task.msgId →
    Acknowledged (Runs.final stepWith {} (allocated events)) task msg := by
  intro all
  have ends := (all (published []) {waitingPublish with timeout := none,sessionState := .unset,cs := .sent} strayPuback
    (by decide +kernel) rfl rfl (by decide +kernel) rfl rfl).effects
  revert ends
  decide +kernel

end Acknowledged

end XivelyClient.Mqtt.Logic
