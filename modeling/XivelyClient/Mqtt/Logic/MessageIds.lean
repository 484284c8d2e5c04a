import XivelyClient.Mqtt.Logic.QueueQ12
import Mathlib.Data.List.Nodup

/-! The message ids of the queued tasks. -/
namespace XivelyClient.Mqtt.Logic

/-- Nobody has the id 0, and an id finds the task that has it and no other. -/
structure LogicLayer.IdsDistinct (layer : LogicLayer) : Prop where
  nonzero : ∀ task ∈ layer.q12TasksQueue, task.msgId ≠ 0
  nodup : (layer.q12TasksQueue.map Task.msgId).Nodup
  found : ∀ task ∈ layer.q12TasksQueue, findTask task.msgId layer.q12TasksQueue = some task

/-- The counter comes upon an id that is free. -/
def freshId (layer : LogicLayer) : Event → Prop
  | .push request => request.atMostOnce = false → layer.working →
    layer.lastMsgId + 1 ≠ 0 ∧ ∀ task ∈ layer.q12TasksQueue, task.msgId ≠ layer.lastMsgId + 1
  | _ => True

/-- The counter is not at its end. -/
def idsLeft (layer : LogicLayer) : Event → Prop
  | .push request => request.atMostOnce = false → layer.working → layer.lastMsgId ≠ 0xFFFF
  | _ => True

instance (layer : LogicLayer) (event : Event) : Decidable (idsLeft layer event) :=
  match event with
  | .push request => inferInstanceAs (Decidable (request.atMostOnce = false → layer.working → layer.lastMsgId ≠ 0xFFFF))
  | .confirm _ _ _ | .pull _ | .pullFailed _ | .taskTimeout _ | .orphanTimeout _ | .keepaliveOnce | .init _ | .connect _
  | .postConnect | .close _ | .closeExternally _ | .setConnectionState _ | .subscriptionCall => isTrue trivial

section Numbers

variable {next more : Nat} {queue sub : List Task} {task : Task} {layer after : LogicLayer}

/-- A queue of tasks that differ in their addresses and in their ids. -/
structure Numbered (next : Nat) (queue : List Task) : Prop where
  ids : (queue.map Task.msgId).Nodup
  nonzero : ∀ task ∈ queue, task.msgId ≠ 0
  addrs : (queue.map Task.addr).Nodup
  bound : ∀ task ∈ queue, task.addr < next

theorem Numbered.nil (next : Nat) : Numbered next [] :=
  ⟨List.nodup_nil,fun _ member => absurd member List.not_mem_nil,List.nodup_nil,
    fun _ member => absurd member List.not_mem_nil⟩

theorem Numbered.mono (numbered : Numbered next queue) (grows : next ≤ more) : Numbered more queue :=
  {numbered with bound := fun task member => (numbered.bound task member).trans_le grows}

theorem Numbered.append (numbered : Numbered next queue) (own : task.addr = next) (nonzero : task.msgId ≠ 0)
    (free : ∀ other ∈ queue, other.msgId ≠ task.msgId) (grows : next < more) : Numbered more (queue ++ [task]) where
  ids := by
    rw [List.map_append,List.map_singleton]
    refine List.nodup_append.mpr ⟨numbered.ids,List.nodup_singleton _,?_⟩
    intro id member other same
    obtain ⟨listed,queued,rfl⟩ := List.mem_map.mp member
    rw [List.mem_singleton.mp same]
    exact free listed queued
  nonzero := by
    intro other member
    rcases List.mem_append.mp member with member | member
    · exact numbered.nonzero other member
    · rw [List.mem_singleton.mp member]
      exact nonzero
  addrs := by
    rw [List.map_append,List.map_singleton]
    refine List.nodup_append.mpr ⟨numbered.addrs,List.nodup_singleton _,?_⟩
    intro addr member other same
    obtain ⟨listed,queued,rfl⟩ := List.mem_map.mp member
    rw [List.mem_singleton.mp same,own]
    exact (numbered.bound listed queued).ne
  bound := by
    intro other member
    rcases List.mem_append.mp member with member | member
    · exact (numbered.bound other member).trans grows
    · rw [List.mem_singleton.mp member,own]
      exact grows

theorem replaceTask_map_sublist {α : Type*} (f : Task → α) {addr : Nat} {result : Option Task}
    (same : ∀ other ∈ queue, other.addr = addr → ∀ changed, result = some changed → f changed = f other) :
    ((replaceTask addr result queue).map f).Sublist (queue.map f) := by
  induction queue with
  | nil => exact List.Sublist.slnil
  | cons head queue ih =>
    have rest := ih fun other member => same other (List.mem_cons_of_mem head member)
    unfold replaceTask at rest ⊢
    by_cases own : head.addr = addr
    · cases result with
      | none =>
        rw [List.filterMap_cons_none (by rw [if_pos own])]
        exact rest.cons _
      | some changed =>
        rw [List.filterMap_cons_some (by rw [if_pos own])]
        rw [List.map_cons,List.map_cons,same head (List.mem_cons_self ..) own changed rfl]
        exact rest.cons_cons _
    · rw [List.filterMap_cons_some (by rw [if_neg own])]
      exact rest.cons_cons _

theorem eq_of_addr (numbered : Numbered next queue) {other : Task} (member : task ∈ queue) (member' : other ∈ queue)
    (same : other.addr = task.addr) : other = task :=
  List.inj_on_of_nodup_map numbered.addrs member' member same

/-- The id of a task finds it. -/
theorem Numbered.findTask (numbered : Numbered next queue) (member : task ∈ queue) :
    findTask task.msgId queue = some task := by
  cases found : Logic.findTask task.msgId queue with
  | none =>
    have missing := List.find?_eq_none.mp found task member
    exact absurd (decide_eq_true rfl) missing
  | some other =>
    unfold Logic.findTask at found
    have same : other.msgId = task.msgId := by simpa using List.find?_some found
    rw [List.inj_on_of_nodup_map numbered.ids (List.mem_of_find?_eq_some found) member same]

theorem Numbered.replace (numbered : Numbered next queue) (member : task ∈ queue) {addr : Nat} (own : addr = task.addr)
    {result : Option Task}
    (job : ∀ changed, result = some changed → changed.addr = task.addr ∧ changed.msgId = task.msgId) :
    Numbered next (replaceTask addr result queue) where
  ids := by
    refine (replaceTask_map_sublist Task.msgId ?_).nodup numbered.ids
    intro other listed same changed taken
    rw [eq_of_addr numbered member listed (same.trans own)]
    exact (job changed taken).2
  nonzero := by
    intro other listed
    rcases mem_replaceTask listed with ⟨listed,_⟩ | taken
    · exact numbered.nonzero other listed
    · rw [(job other taken).2]
      exact numbered.nonzero task member
  addrs := by
    refine (replaceTask_map_sublist Task.addr ?_).nodup numbered.addrs
    intro other listed same changed taken
    rw [(job changed taken).1,same,own]
  bound := by
    intro other listed
    rcases mem_replaceTask listed with ⟨listed,_⟩ | taken
    · exact numbered.bound other listed
    · rw [(job other taken).1]
      exact numbered.bound task member

end Numbers

section Steps

variable {layer after base : LogicLayer} {allocs : Allocations} {task : Task} {event : Event} {state : XiState}

/-- What every call keeps. -/
structure Registered (layer : LogicLayer) : Prop where
  queue : Numbered layer.nextAddr layer.q12TasksQueue
  copies : Numbered layer.nextAddr layer.copyOfQ12UnackedMessagesQueue

theorem Registered.idsDistinct (registered : Registered layer) : layer.IdsDistinct :=
  ⟨registered.queue.nonzero,registered.queue.ids,fun _ member => registered.queue.findTask member⟩

theorem Registered.beside (registered : Registered layer) (same : BesideQ12 layer after) : Registered after where
  queue := by
    rw [same.q12TasksQueue]
    exact registered.queue.mono same.nextAddr
  copies := by
    rw [same.copies]
    exact registered.copies.mono same.nextAddr

theorem Registered.resumeQ12 (registered : Registered layer) {changed : Task} (member : task ∈ layer.q12TasksQueue)
    (own : changed.addr = task.addr) (same : changed.msgId = task.msgId) (msg : Option Message) : Registered (layer.resumeQ12 allocs changed state msg) where
  queue := by
    rw [resumeQ12_nextAddr,resumeQ12_q12TasksQueue]
    refine registered.queue.replace member own fun result taken => ?_
    have job := executeQ12_sameJob _ _ _ _ _ result taken
    exact ⟨job.addr.trans own,job.msgId.trans same⟩
  copies := by
    rw [resumeQ12_nextAddr,resumeQ12_copies]
    exact registered.copies

theorem savedTasks_sublist {α : Type*} (f : Task → α) (same : ∀ task context, f {task with timeout := none,context := context} = f task) :
    ((savedTasks layer).map f).Sublist (layer.q12TasksQueue.map f) := by
  unfold savedTasks
  rw [List.map_map,List.filter_map,List.map_map]
  have whole : layer.q12TasksQueue.map f =
      layer.q12TasksQueue.map ((f ∘ ({· with context := false})) ∘ LogicLayer.cancelTaskTimeout) :=
    List.map_congr_left fun task _ => (same task false).symm
  rw [whole]
  exact (List.filter_sublist).map _

theorem Numbered.of_map_sublist {next : Nat} {queue sub : List Task} (numbered : Numbered next queue)
    (ids : (sub.map Task.msgId).Sublist (queue.map Task.msgId))
    (addrs : (sub.map Task.addr).Sublist (queue.map Task.addr)) : Numbered next sub where
  ids := ids.nodup numbered.ids
  nonzero := by
    intro task member
    obtain ⟨other,listed,same⟩ := List.mem_map.mp (ids.subset (List.mem_map_of_mem member))
    rw [← same]
    exact numbered.nonzero other listed
  addrs := addrs.nodup numbered.addrs
  bound := by
    intro task member
    obtain ⟨other,listed,same⟩ := List.mem_map.mp (addrs.subset (List.mem_map_of_mem member))
    rw [← same]
    exact numbered.bound other listed

/-- The tasks that are sent again are in the queue until it is their turn. -/
theorem Registered.resend (registered : Registered layer) {rest : List Task} (listed : ∀ task ∈ rest, task ∈ layer.q12TasksQueue)
    (apart : (rest.map Task.addr).Nodup) :
    Registered (rest.foldl (LogicLayer.setNewContextAndCallResend allocs) layer) := by
  induction rest generalizing layer with
  | nil => exact registered
  | cons task rest ih =>
    rw [List.map_cons,List.nodup_cons] at apart
    rw [List.foldl_cons]
    unfold LogicLayer.setNewContextAndCallResend
    split
    · refine ih ?_ ?_ apart.2
      · refine registered.resumeQ12 (listed task (List.mem_cons_self ..)) ?_ ?_ _ <;> rfl
      · intro other member
        rw [resumeQ12_q12TasksQueue]
        refine mem_replaceTask_of_ne (listed other (List.mem_cons_of_mem task member)) fun same => apart.1 ?_
        exact List.mem_map.mpr ⟨other,member,same⟩
    · exact ih registered (fun other member => listed other (List.mem_cons_of_mem task member)) apart.2

theorem Registered.push (registered : Registered layer) (own : task.addr < layer.nextAddr)
    (apart : ∀ other ∈ layer.q12TasksQueue, other.addr < task.addr) (nonzero : layer.lastMsgId + 1 ≠ 0)
    (free : ∀ other ∈ layer.q12TasksQueue, other.msgId ≠ layer.lastMsgId + 1) :
    Registered (layer.queueQ12Task allocs task) := by
  let queued : LogicLayer := {layer with
    lastMsgId := layer.lastMsgId + 1
    q12TasksQueue := layer.q12TasksQueue ++ [{task with msgId := layer.lastMsgId + 1}]}
  have earlier : Numbered task.addr layer.q12TasksQueue := {registered.queue with bound := apart}
  have put : Registered queued := ⟨earlier.append rfl nonzero free own,registered.copies⟩
  unfold LogicLayer.queueQ12Task
  simp only
  split
  · refine put.resumeQ12 (List.mem_append_right _ (List.mem_singleton_self _)) ?_ ?_ _ <;> rfl
  · exact put

theorem registered_step (registered : Registered layer) (fresh : freshId layer event)
    (move : StepQ12 allocs layer event after) : Registered after := by
  cases move with
  | beside same => exact registered.beside same
  | push q12 works same next operational connection =>
    rename_i request base
    obtain ⟨nonzero,free⟩ := fresh q12 works
    have own := request.queued_addr layer.nextAddr
    refine (registered.beside same).push ?_ ?_ ?_ ?_
    · rw [own]
      exact next
    · rw [same.q12TasksQueue,own]
      exact registered.queue.bound
    · rw [same.lastMsgId]
      exact nonzero
    · rw [same.q12TasksQueue,same.lastMsgId]
      exact free
  | confirm works positive toServer found =>
    have erased (sending : List (UInt16 × MqttType)) : Registered {layer with sending := sending} :=
      ⟨registered.queue,registered.copies⟩
    rename_i msgId type _ _
    exact (erased (layer.sending.erase (msgId,type))).resumeQ12 (List.mem_of_find?_eq_some found) rfl rfl _
  | unheard positive toServer past => exact ⟨registered.queue,registered.copies⟩
  | pull works plain positive toServer found =>
    refine registered.resumeQ12 (List.mem_of_find?_eq_some found) ?_ ?_ _ <;> rfl
  | timeout found pending =>
    refine registered.resumeQ12 (List.mem_of_find?_eq_some found) ?_ ?_ _ <;> rfl
  | postConnect data =>
    have resent : Registered (layer.q12TasksQueue.foldl (LogicLayer.setNewContextAndCallResend allocs) layer) :=
      registered.resend (fun _ member => member) registered.queue.addrs
    exact ⟨resent.queue,resent.copies⟩
  | init connection =>
    refine ⟨?_,?_⟩
    · rw [init_nextAddr,init_q12TasksQueue]
      split
      · exact registered.copies
      · exact registered.queue
    · rw [init_copies]
      exact .nil _
  | closeExternally past data =>
    refine ⟨.nil _,?_⟩
    rw [released_copies]
    split
    · refine Numbered.mono ?_ released_nextAddr
      exact registered.queue.of_map_sublist (savedTasks_sublist _ fun _ _ => rfl) (savedTasks_sublist _ fun _ _ => rfl)
    · exact registered.copies.mono released_nextAddr
  | subscriptionCall =>
    obtain ⟨queue,copies,next⟩ := @runSubscriptionCall_queue layer
    refine ⟨?_,?_⟩
    · rw [next,queue]
      exact registered.queue
    · rw [next,copies]
      exact registered.copies

/-- Neither counter has fallen behind the ids that it gave out. -/
structure Counted (layer : LogicLayer) : Prop where
  queue : ∀ task ∈ layer.q12TasksQueue, task.msgId ≤ layer.lastMsgId
  copies : ∀ task ∈ layer.copyOfQ12UnackedMessagesQueue, task.msgId ≤ layer.copyOfLastMsgId

theorem lt_next {id : UInt16} (left : id ≠ 0xFFFF) : id < id + 1 := by
  have small := id.toNat_lt
  have other : id.toNat ≠ 65535 := fun last => left (UInt16.toNat_inj.mp last)
  rw [UInt16.lt_iff_toNat_lt,UInt16.toNat_add]
  change _ < (id.toNat + 1) % 65536
  omega

/-- A counter that is not at its end comes upon a free id. -/
theorem Counted.free (counted : Counted layer) (left : layer.lastMsgId ≠ 0xFFFF) :
    layer.lastMsgId + 1 ≠ 0 ∧ ∀ task ∈ layer.q12TasksQueue, task.msgId ≠ layer.lastMsgId + 1 := by
  have grows := lt_next left
  refine ⟨fun zero => ?_,fun task member same => ?_⟩
  · rw [zero] at grows
    exact absurd grows UInt16.not_lt_zero
  · have behind := counted.queue task member
    rw [same] at behind
    exact absurd grows (UInt16.not_lt.mpr behind)

theorem Counted.unasserted (counted : Counted layer) (left : layer.lastMsgId ≠ 0xFFFF) :
    findTask (layer.lastMsgId + 1) layer.q12TasksQueue = none := by
  refine List.find?_eq_none.mpr fun task member same => ?_
  exact (counted.free left).2 task member (of_decide_eq_true same)

theorem Counted.freshId (counted : Counted layer) (left : idsLeft layer event) : freshId layer event := by
  cases event with
  | push request => exact fun q12 works => counted.free (left q12 works)
  | _ => trivial

theorem Counted.beside (counted : Counted layer) (same : BesideQ12 layer after) : Counted after where
  queue := by
    rw [same.q12TasksQueue,same.lastMsgId]
    exact counted.queue
  copies := by
    rw [same.copies,same.copyOfLastMsgId]
    exact counted.copies

theorem Counted.resumeQ12 (counted : Counted layer) {changed : Task} (member : task ∈ layer.q12TasksQueue)
    (same : changed.msgId = task.msgId) (msg : Option Message) : Counted (layer.resumeQ12 allocs changed state msg) where
  queue := by
    intro other listed
    rw [resumeQ12_q12TasksQueue] at listed
    rw [resumeQ12_lastMsgId]
    rcases mem_replaceTask listed with ⟨listed,_⟩ | taken
    · exact counted.queue other listed
    · rw [(executeQ12_sameJob _ _ _ _ _ other taken).msgId,same]
      exact counted.queue task member
  copies := by
    rw [resumeQ12_copies,resumeQ12_copyOfLastMsgId]
    exact counted.copies

theorem Counted.resend (counted : Counted layer) {rest : List Task} (listed : ∀ task ∈ rest, task ∈ layer.q12TasksQueue)
    (apart : (rest.map Task.addr).Nodup) : Counted (rest.foldl (LogicLayer.setNewContextAndCallResend allocs) layer) := by
  induction rest generalizing layer with
  | nil => exact counted
  | cons task rest ih =>
    rw [List.map_cons,List.nodup_cons] at apart
    rw [List.foldl_cons]
    unfold LogicLayer.setNewContextAndCallResend
    split
    · refine ih ?_ ?_ apart.2
      · refine counted.resumeQ12 (listed task (List.mem_cons_self ..)) ?_ _
        rfl
      · intro other member
        rw [resumeQ12_q12TasksQueue]
        refine mem_replaceTask_of_ne (listed other (List.mem_cons_of_mem task member)) fun same => apart.1 ?_
        exact List.mem_map.mpr ⟨other,member,same⟩
    · exact ih counted (fun other member => listed other (List.mem_cons_of_mem task member)) apart.2

theorem Counted.push (counted : Counted layer) (left : layer.lastMsgId ≠ 0xFFFF) : Counted (layer.queueQ12Task allocs task) := by
  let queued : LogicLayer := {layer with
    lastMsgId := layer.lastMsgId + 1
    q12TasksQueue := layer.q12TasksQueue ++ [{task with msgId := layer.lastMsgId + 1}]}
  have put : Counted queued := by
    refine ⟨fun other member => ?_,counted.copies⟩
    rcases List.mem_append.mp member with member | member
    · exact UInt16.le_trans (counted.queue other member) (UInt16.le_of_lt (lt_next left))
    · rw [List.mem_singleton.mp member]
      exact UInt16.le_refl _
  unfold LogicLayer.queueQ12Task
  simp only
  split
  · exact put.resumeQ12 (List.mem_append_right _ (List.mem_singleton_self _)) rfl _
  · exact put

theorem savedTasks_msgId {saved : Task} (member : saved ∈ savedTasks layer) : ∃ task ∈ layer.q12TasksQueue, task.msgId = saved.msgId :=
  List.mem_map.mp ((savedTasks_sublist Task.msgId fun _ _ => rfl).subset (List.mem_map_of_mem member))

theorem counted_step (counted : Counted layer) (registered : Registered layer) (left : idsLeft layer event)
    (move : StepQ12 allocs layer event after) : Counted after := by
  cases move with
  | beside same => exact counted.beside same
  | push q12 works same next operational connection =>
    refine (counted.beside same).push ?_
    rw [same.lastMsgId]
    exact left q12 works
  | @confirm msgId type _ _ works positive toServer found =>
    have erased (sending : List (UInt16 × MqttType)) : Counted {layer with sending := sending} :=
      ⟨counted.queue,counted.copies⟩
    exact (erased (layer.sending.erase (msgId,type))).resumeQ12 (List.mem_of_find?_eq_some found) rfl _
  | unheard positive toServer past => exact ⟨counted.queue,counted.copies⟩
  | pull works plain positive toServer found =>
    refine counted.resumeQ12 (List.mem_of_find?_eq_some found) ?_ _
    rfl
  | timeout found pending =>
    refine counted.resumeQ12 (List.mem_of_find?_eq_some found) ?_ _
    rfl
  | postConnect data =>
    have resent : Counted (layer.q12TasksQueue.foldl (LogicLayer.setNewContextAndCallResend allocs) layer) :=
      counted.resend (fun _ member => member) registered.queue.addrs
    exact ⟨resent.queue,resent.copies⟩
  | init connection =>
    refine ⟨?_,?_⟩
    · rw [init_q12TasksQueue,init_lastMsgId]
      split
      · exact counted.copies
      · exact counted.queue
    · rw [init_copies]
      exact fun _ member => absurd member List.not_mem_nil
  | closeExternally past data =>
    refine ⟨fun _ member => absurd member List.not_mem_nil,?_⟩
    rw [released_copies,released_copyOfLastMsgId]
    split
    · intro saved member
      obtain ⟨task,queued,same⟩ := savedTasks_msgId member
      rw [← same]
      exact counted.queue task queued
    · exact counted.copies
  | subscriptionCall =>
    obtain ⟨queue,copies,_⟩ := @runSubscriptionCall_queue layer
    obtain ⟨last,saved⟩ := @runSubscriptionCall_counters layer
    refine ⟨?_,?_⟩
    · rw [queue,last]
      exact counted.queue
    · rw [copies,saved]
      exact counted.copies

/-- As long as the counter does not come to its end, the queued tasks differ in their ids, and the search in `run_task` for one with
the next id finds none. -/
theorem ids_distinct {events : List (Allocations × Event)}
    (left : Runs.Admissible stepWith (fun layer call => layer.fault = false → idsLeft layer call.2) {} events) :
    Runs.Always stepWith (fun layer => layer.IdsDistinct ∧
      (layer.lastMsgId ≠ 0xFFFF → findTask (layer.lastMsgId + 1) layer.q12TasksQueue = none)) {} events := by
  have start : Registered {} ∧ Counted {} :=
    ⟨⟨.nil _,.nil _⟩,fun _ member => absurd member List.not_mem_nil,fun _ member => absurd member List.not_mem_nil⟩
  have always := Runs.always_of_step (I := fun layer => Registered layer ∧ Counted layer) (fun layer call sound may => ?_) start left
  · exact always.mono fun _ sound => ⟨sound.1.idsDistinct,sound.2.unasserted⟩
  · cases fault : layer.fault with
    | true =>
      unfold stepWith step
      rw [if_pos fault]
      exact sound
    | false =>
      obtain ⟨registered,counted⟩ := sound
      have move := step_cases12 call.1 fault call.2
      exact ⟨registered_step registered (counted.freshId (may fault)) move,counted_step counted registered (may fault) move⟩

def publishAtLeastOnce : Request := .publish [] (.ofBytes .managed []) .atLeastOnce 0 none

/-- A session of two publishes that is taken up again. -/
def continuedSession : List Event :=
  openedConnection {sessionType := .continue} ++ [.push publishAtLeastOnce,.push publishAtLeastOnce,.confirm 1 .publish true,
    .confirm 2 .publish true,.closeExternally .ok] ++ openedConnection {sessionType := .continue} ++
    [.postConnect,.push publishAtLeastOnce,.confirm 3 .publish true]

theorem ids_distinct_continued : Runs.Always stepWith (fun layer => layer.IdsDistinct ∧
    (layer.lastMsgId ≠ 0xFFFF → findTask (layer.lastMsgId + 1) layer.q12TasksQueue = none)) {} (allocated continuedSession) :=
  ids_distinct (by decide +kernel)

/-- While the connection opens, a publish is queued and nothing else happens. -/
theorem push_opening (running : layer.fault = false) (works : layer.working)
    (opening : layer.connection.connectionState = .opening) :
    stepWith layer ({},.push publishAtLeastOnce) = {layer with
      nextAddr := layer.nextAddr + 1
      lastMsgId := layer.lastMsgId + 1
      q12TasksQueue := layer.q12TasksQueue ++
        [{publishAtLeastOnce.make layer.nextAddr with msgId := layer.lastMsgId + 1}]} := by
  unfold stepWith step
  rw [if_neg (by rw [running]; exact Bool.false_ne_true)]
  change LogicLayer.push _ _ _ _ = _
  unfold LogicLayer.push
  split
  · exact absurd works (not_working_iff.mpr ‹_›)
  rw [if_neg (by decide)]
  change LogicLayer.queueQ12Task _ _ _ = _
  unfold LogicLayer.queueQ12Task
  simp only
  rw [if_neg (by rw [opening]; exact ConnectionState.noConfusion)]

/-- After as many publishes as there are ids, one has the id 0. -/
theorem ids_wrap :
    ¬ (Runs.final stepWith {} (({},.init {}) :: List.replicate 65536 ({},.push publishAtLeastOnce))).IdsDistinct := by
  have pushes (n : Nat) : ∃ layer : LogicLayer,
      Runs.final stepWith {} (({},.init {}) :: List.replicate n ({},.push publishAtLeastOnce)) = layer ∧
      layer.fault = false ∧ layer.working ∧ layer.connection.connectionState = .opening ∧
      layer.lastMsgId = UInt16.ofNat n ∧
      (0 < n → ∃ task ∈ layer.q12TasksQueue, task.msgId = UInt16.ofNat n) := by
    induction n with
    | zero => exact ⟨_,rfl,rfl,⟨rfl,rfl⟩,rfl,rfl,fun positive => absurd positive (Nat.lt_irrefl 0)⟩
    | succ n ih =>
      obtain ⟨layer,same,running,works,opening,last,_⟩ := ih
      rw [List.replicate_succ',← List.cons_append]
      unfold Runs.final at same ⊢
      rw [List.foldl_append,same]
      have next : layer.lastMsgId + 1 = UInt16.ofNat (n + 1) := by
        rw [last,UInt16.ofNat_add]
        rfl
      exact ⟨_,push_opening running works opening,running,works,opening,next,
        fun _ => ⟨_,List.mem_append_right _ (List.mem_singleton_self _),next⟩⟩
  obtain ⟨layer,same,_,_,_,_,wrapped⟩ := pushes 65536
  rw [same]
  obtain ⟨task,member,zero⟩ := wrapped (Nat.zero_lt_succ _)
  exact fun distinct => distinct.nonzero task member zero

end Steps

end XivelyClient.Mqtt.Logic
