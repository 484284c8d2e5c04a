import XivelyClient.TimedTask.Pending
import XivelyClient.TimedTask.Story

/-! The memory of the tasks, their handles and their events stay linked over every operation. -/
namespace XivelyClient.TimedTask

open Handle EventDispatcher

/-- There is a task at the address, in such a state. -/
def InState (task : Nat → Option Task) (p : TaskState → Prop) (address : Nat) : Prop := ∃ known, task address = some known ∧ p known.state

abbrev Waiting (task : Nat → Option Task) : Nat → Prop := InState task (· = .scheduled)

abbrev Busy (task : Nat → Option Task) : Nat → Prop := InState task (· ≠ .scheduled)

/-- `xi_register_handle_for_object` finds a slot, or adds one. -/
def Takes (scheduler : Scheduler) : Prop :=
  none ∈ scheduler.timedTasksVector.contents ∨ scheduler.timedTasksVector.elemNo < maxTimedEvent.toInt

/-- The callback that ends is one of a task that waits again. -/
def Reschedules (scheduler : Scheduler) : Prop := ∃ address known, scheduler.running.head? = some address ∧
  scheduler.task address = some known ∧ known.secondsRepeat ≠ 0 ∧ known.state ≠ .deletable

/-- The dispatcher takes the event of a task that is to wait. -/
def HasRoom (scheduler : Scheduler) : Event → Prop
  | .add .. => Takes scheduler → scheduler.timeEvents.Room
  | .finish _ => Reschedules scheduler → scheduler.timeEvents.Room
  | _ => True

/-- Each task has a handle, and an event as long as it is scheduled; the others are being run. The other events are no task's. -/
structure Linked (scheduler : Scheduler) (live : Live Nat) : Prop where
  agrees : Agrees scheduler.timedTasksVector live
  short : scheduler.timedTasksVector.contents.length ≤ 64
  pending : scheduler.timeEvents.Pending fun address => Waiting scheduler.task address ∨ scheduler.other address = true
  apart : ∀ address, scheduler.other address = true → scheduler.task address = none
  known : ∀ address, address ∈ live.map Prod.fst ↔ ∃ known, scheduler.task address = some known
  nodup : scheduler.running.Nodup
  busy : ∀ address, address ∈ scheduler.running ↔ Busy scheduler.task address

structure Good (scheduler : Scheduler) (live : Live Nat) : Prop extends Linked scheduler live where
  told : Told scheduler.task scheduler.serials scheduler.log live

section States

variable {task : Nat → Option Task} {p : TaskState → Prop} {address other : Nat} {known : Task}

theorem inState_none : InState (Function.update task address none) p other ↔ other ≠ address ∧ InState task p other := by
  by_cases this : other = address
  · subst this
    simp [InState]
  · simp [InState,this]

theorem inState_some : InState (Function.update task address (some known)) p other ↔
    (other = address ∧ p known.state) ∨ (other ≠ address ∧ InState task p other) := by
  by_cases this : other = address
  · subst this
    simp [InState]
  · simp [InState,this]

theorem inState_of (here : task address = some known) : InState task p address ↔ p known.state := by simp [InState,here]

theorem inState_same {known' : Task} (here : task address = some known) (same : p known'.state ↔ p known.state) :
    InState (Function.update task address (some known')) p other ↔ InState task p other := by
  by_cases this : other = address
  · subst this
    simp [InState,here,same]
  · simp [InState,this]

theorem known_none {live : Live Nat} (same : ∀ address, address ∈ live.map Prod.fst ↔ ∃ known, task address = some known) :
    other ∈ (without address live).map Prod.fst ↔ ∃ known, Function.update task address none other = some known := by
  rw [mem_without,same]
  by_cases this : other = address
  · subst this
    simp
  · simp [this]

theorem known_some {live : Live Nat} (here : task address = some known)
    (same : ∀ address, address ∈ live.map Prod.fst ↔ ∃ known, task address = some known) (known' : Task) :
    other ∈ live.map Prod.fst ↔ ∃ known, Function.update task address (some known') other = some known := by
  rw [same]
  by_cases this : other = address
  · subst this
    simp [here]
  · simp [this]

end States

section Registry

variable {vector vector' : XiVector (Option Nat)} {live : Live Nat} {address : Nat} {answer : XiState}

theorem register_short (agrees : Agrees vector live) (short : vector.contents.length ≤ 64)
    (registered : registerHandleForObject vector maxTimedEvent (some address) true = some (answer,vector')) :
    vector'.contents.length ≤ 64 := by
  have inside : vector.elemNo ≤ vector.array.length := agrees.sound.within.trans agrees.sound.whole.le
  have limit : maxTimedEvent.toInt = 64 := rfl
  rcases find_cases agrees.sound none with ⟨missing,_⟩ | ⟨n,found,_,below⟩
  · rw [registerHandleForObject,missing,Option.bind_some,if_pos (by omega)] at registered
    split at registered
    · simp_all
    · rename_i more
      obtain ⟨⟨done,pushed⟩,push,same⟩ := Option.map_eq_some_iff.mp registered
      obtain rfl : pushed = vector' := congrArg Prod.snd same
      obtain ⟨answer',vector'',push',follows⟩ := XiVector.push_follows agrees.sound (some address) true
      obtain ⟨rfl,rfl⟩ : done = answer' ∧ pushed = vector'' := by simpa using push.symm.trans push'
      have length := XiVector.contents_length inside
      rw [follows.contents]
      split
      · rw [XiVector.Call.onList,List.length_append,List.length_singleton]
        omega
      · exact short
  · obtain ⟨vector'',written,_,contents,_⟩ := write_slot agrees.sound below (some address)
    rw [registerHandleForObject,found,Option.bind_some,if_neg (by omega),written] at registered
    obtain rfl : vector'' = vector' := by simpa using congrArg (Option.map Prod.snd) registered
    rwa [contents,List.length_set]

theorem register_ok_iff (sound : vector.Sound) {maxObjectCnt : Int32} {alloc : Bool}
    (registered : registerHandleForObject vector maxObjectCnt (some address) alloc = some (answer,vector')) :
    answer = .ok ↔ none ∈ vector.contents ∨ vector.elemNo < maxObjectCnt.toInt := by
  rcases find_cases sound none with ⟨missing,full⟩ | ⟨n,found,empty,_⟩
  · rw [registerHandleForObject,missing,Option.bind_some,if_pos (by omega)] at registered
    split at registered
    · rename_i limit
      obtain rfl : XiState.noMoreResourceAvailable = answer := congrArg Prod.fst (Option.some.inj registered)
      exact iff_of_false (by simp) (not_or.mpr ⟨full,by omega⟩)
    · rename_i more
      obtain ⟨⟨done,pushed⟩,push,same⟩ := Option.map_eq_some_iff.mp registered
      exact iff_of_true (congrArg Prod.fst same).symm (.inr (by omega))
  · rw [registerHandleForObject,found,Option.bind_some,if_neg (by omega)] at registered
    obtain ⟨written,write,same⟩ := Option.map_eq_some_iff.mp registered
    exact iff_of_true (congrArg Prod.fst same).symm (.inl (List.mem_of_getElem? empty))

theorem delete_short (agrees : Agrees vector live)
    (deleted : deleteHandleForObject vector (some address) = some (answer,vector')) : vector'.contents.length = vector.contents.length := by
  rcases find_cases agrees.sound (some address) with ⟨missing,_⟩ | ⟨n,found,_,below⟩
  · rw [deleteHandleForObject,missing,Option.bind_some,if_pos (by omega)] at deleted
    simp_all
  · obtain ⟨vector'',written,_,contents,_⟩ := write_slot agrees.sound below none
    rw [deleteHandleForObject,found,Option.bind_some,if_neg (by omega),written] at deleted
    obtain rfl : vector'' = vector' := by simpa using congrArg (Option.map Prod.snd) deleted
    rw [contents,List.length_set]

end Registry

section Operations

variable {scheduler : Scheduler} {live : Live Nat} {address : Nat} {known : Task}

/-- An event that is no task's has a handle of its own. -/
theorem Linked.away (linked : Linked scheduler live) (there : scheduler.task address = some known) {other : Nat}
    (set : scheduler.other other = true) : other ≠ address := by
  rintro rfl
  rw [linked.apart other set] at there
  cases there

theorem Linked.apart_some (linked : Linked scheduler live) (there : scheduler.task address = some known) (known' : Task) (other : Nat)
    (set : scheduler.other other = true) : Function.update scheduler.task address (some known') other = none := by
  rw [Function.update_of_ne (linked.away there set),linked.apart other set]

theorem Linked.apart_none (linked : Linked scheduler live) (address other : Nat) (set : scheduler.other other = true) :
    Function.update scheduler.task address none other = none := by
  by_cases this : other = address
  · rw [this,Function.update_self]
  · rw [Function.update_of_ne this,linked.apart other set]

/-- A task that is not scheduled has no event. -/
theorem Linked.idle (linked : Linked scheduler live) (there : scheduler.task address = some known) (state : known.state ≠ .scheduled) :
    ¬ (Waiting scheduler.task address ∨ scheduler.other address = true) := by
  rintro (waits | set)
  · exact state ((inState_of there).mp waits)
  · exact linked.away there set rfl

theorem idle_free (free : scheduler.task address = none) (unset : scheduler.other address = false) :
    ¬ (Waiting scheduler.task address ∨ scheduler.other address = true) := by
  simp [InState,free,unset]

/-- The end of a task leaves an empty slot. -/
theorem endTask_done (agrees : Agrees scheduler.timedTasksVector live) (here : address ∈ live.map Prod.fst) (known : Task) :
    ∃ timedTasksVector, scheduler.endTask address known = some ({scheduler with timedTasksVector}.freeTask address known) ∧
      Agrees timedTasksVector (without address live) ∧
      timedTasksVector.contents.length = scheduler.timedTasksVector.contents.length := by
  obtain ⟨answer,timedTasksVector,deleted,same,agrees'⟩ := delete_done agrees address
  obtain rfl := same.mpr here
  refine ⟨timedTasksVector,?_,by simpa using agrees',delete_short agrees deleted⟩
  rw [Scheduler.endTask,deleted]
  rfl

theorem Good.remove (good : Good scheduler live) (timedTaskHandle : Int32) :
    ∃ scheduler' live', scheduler.removeTimedTask timedTaskHandle = some scheduler' ∧ Good scheduler' live' := by
  obtain ⟨found,got,belongs⟩ := objectForHandle_live good.agrees timedTaskHandle
  rw [Scheduler.removeTimedTask,got,Option.bind_some]
  cases found with
  | none => exact ⟨scheduler,live,rfl,good⟩
  | some address =>
    have here : address ∈ live.map Prod.fst := List.mem_map_of_mem ((belongs address).mp rfl)
    obtain ⟨known,there⟩ := (good.known address).mp here
    simp only [there,Option.bind_some]
    have told := good.told.removed there
    cases state : known.state with
    | scheduled =>
      obtain ⟨removed,timeEvents,cancelled,pending⟩ := good.pending.cancelled (.inl ⟨known,there,state⟩)
      obtain ⟨timedTasksVector,ended,agrees,length⟩ :=
        @endTask_done {scheduler.note (.removed known.serial) with timeEvents} live address good.agrees here known
      have done : (scheduler.note (.removed known.serial)).cancel address =
          some (.ok,{scheduler.note (.removed known.serial) with timeEvents}) := by
        rw [Scheduler.cancel]
        exact congrArg _ cancelled
      simp only [done,Option.bind_some,ne_eq,not_true_eq_false,if_false]
      refine ⟨_,without address live,ended,⟨agrees,length.trans_le good.short,?_,good.apart_none address,?_,good.nodup,?_⟩,?_⟩
      · refine pending.congr fun other => ?_
        rw [and_or_left,and_iff_right_of_imp (good.away there)]
        exact or_congr_left inState_none.symm
      · exact fun other => known_none good.known
      · intro other
        refine (good.busy other).trans (inState_none.trans (and_iff_right_of_imp ?_)).symm
        rintro busy rfl
        exact (inState_of there).mp busy state
      · have freed := told.freed (Function.update_self _ _ _)
        rwa [Function.update_idem] at freed
    | running =>
      refine ⟨_,live,rfl,⟨good.agrees,good.short,?_,good.apart_some there _,fun other => known_some there good.known _,good.nodup,?_⟩,told⟩
      · exact good.pending.congr fun other => or_congr_left (inState_same there (by simp [state])).symm
      · exact fun other => (good.busy other).trans (inState_same there (by simp [state])).symm
    | deletable =>
      have same : Function.update scheduler.task address (some {known with state := .deletable}) = scheduler.task := by
        rw [Function.update_eq_self_iff,there,← state]
      rw [same] at told
      exact ⟨_,live,rfl,⟨good.agrees,good.short,good.pending,good.apart,good.known,good.nodup,good.busy⟩,told⟩

theorem Good.start (good : Good scheduler live) : ∃ scheduler' live', scheduler.startTask = some scheduler' ∧ Good scheduler' live' := by
  rw [Scheduler.startTask]
  cases first : scheduler.due with
  | none => exact ⟨scheduler,live,rfl,good⟩
  | some event =>
    obtain ⟨rest,array⟩ := List.head?_eq_some_iff.mp (Option.filter_eq_some_iff.mp first).1
    obtain ⟨timeEvents,popped,waits,pending⟩ := good.pending.top array
    simp only [popped,Option.bind_some]
    change Waiting scheduler.task (scheduler.timeEvents.event event).eventHandle ∨
      scheduler.other (scheduler.timeEvents.event event).eventHandle = true at waits
    change timeEvents.Pending fun other => other ≠ (scheduler.timeEvents.event event).eventHandle ∧ _ at pending
    generalize (scheduler.timeEvents.event event).eventHandle = address at waits pending ⊢
    cases set : scheduler.other address with
    | true =>
      simp only [if_true]
      refine ⟨_,live,rfl,⟨good.agrees,good.short,?_,?_,good.known,good.nodup,good.busy⟩,good.told⟩
      · refine pending.congr fun other => ?_
        by_cases this : other = address
        · subst this
          simp [InState,good.apart other set]
        · simp [this]
      · intro other set'
        by_cases this : other = address
        · exact this ▸ good.apart address set
        · exact good.apart other ((Function.update_of_ne this _ _).symm.trans set')
    | false =>
      obtain ⟨known,there,state⟩ := waits.resolve_right (by simp [set])
      obtain ⟨handle,entry⟩ := handle_of ((good.known address).mpr ⟨known,there⟩)
      simp only [Bool.false_eq_true,if_false,Option.bind_some,good.agrees.find_live entry,ne_eq,not_true_eq_false,there,Option.map_some]
      refine ⟨_,live,rfl,⟨good.agrees,good.short,?_,good.apart_some there _,fun other => known_some there good.known _,?_,?_⟩,
        good.told.started there state⟩
      · refine pending.congr fun other => ?_
        rw [and_or_left,and_iff_right_of_imp (good.away there)]
        exact or_congr_left (by simp [Scheduler.note,Scheduler.setTask,inState_some])
      · refine List.nodup_cons.mpr ⟨fun called => ?_,good.nodup⟩
        exact (inState_of there).mp ((good.busy _).mp called) state
      · intro other
        rw [List.mem_cons,good.busy]
        by_cases this : other = address
        · simp [this,Scheduler.note,Scheduler.setTask,inState_some]
        · simp [this,Scheduler.note,Scheduler.setTask,inState_some]

/-- A step of another part of the library does nothing to the tasks. -/
theorem Good.others (good : Good scheduler live) {timeEvents : TimeEvents} {other : Nat → Bool}
    (pending : timeEvents.Pending fun address => Waiting scheduler.task address ∨ other address = true)
    (apart : ∀ address, other address = true → scheduler.task address = none) : Good {scheduler with timeEvents,other} live :=
  ⟨⟨good.agrees,good.short,pending,apart,good.known,good.nodup,good.busy⟩,good.told⟩

theorem Good.executeOther (good : Good scheduler live) {event : Nat} (free : scheduler.task address = none)
    (unset : scheduler.other address = false) (new : event ∉ scheduler.timeEvents.array) (seconds : Int) :
    ∃ scheduler', scheduler.executeOther event address seconds = some scheduler' ∧ Good scheduler' live := by
  have idle := idle_free free unset
  rw [Scheduler.executeOther,Scheduler.executeIn]
  by_cases room : scheduler.timeEvents.Room
  · obtain ⟨timeEvents,done,pending⟩ := good.pending.added new idle room
    rw [done]
    refine ⟨_,rfl,good.others (pending.congr fun other => ?_) fun other set => ?_⟩
    · by_cases this : other = address
      · simp [this]
      · simp [this]
    · by_cases this : other = address
      · exact this ▸ free
      · exact good.apart other ((Function.update_of_ne this _ _).symm.trans set)
  · obtain ⟨timeEvents,done,pending⟩ := good.pending.refused new idle room
    rw [done]
    exact ⟨_,rfl,good.others pending good.apart⟩

theorem Good.cancelOther (good : Good scheduler live) (set : scheduler.other address = true) :
    ∃ scheduler', scheduler.cancelOther address = some scheduler' ∧ Good scheduler' live := by
  obtain ⟨removed,timeEvents,done,pending⟩ := good.pending.cancelled (.inr set)
  rw [Scheduler.cancelOther,Scheduler.cancel,done]
  refine ⟨_,rfl,good.others (pending.congr fun other => ?_) fun other set' => ?_⟩
  · by_cases this : other = address
    · subst this
      simp [InState,good.apart other set]
    · simp [this]
  · by_cases this : other = address
    · exact this ▸ good.apart address set
    · exact good.apart other ((Function.update_of_ne this _ _).symm.trans set')

theorem Good.restartOther (good : Good scheduler live) (set : scheduler.other address = true) (newTime : Int) :
    ∃ scheduler', scheduler.restartOther address newTime = some scheduler' ∧ Good scheduler' live := by
  obtain ⟨timeEvents,done,pending⟩ := @TimeEvents.Pending.restarted _ _ _ newTime good.pending (.inr set)
  rw [Scheduler.restartOther,done]
  exact ⟨_,rfl,good.others pending good.apart⟩

theorem Good.finish (good : Good scheduler live) {event : Nat} (new : event ∉ scheduler.timeEvents.array)
    (room : HasRoom scheduler (.finish event)) : ∃ scheduler' live', scheduler.finishTask event = some scheduler' ∧ Good scheduler' live' := by
  rw [Scheduler.finishTask]
  cases calls : scheduler.running with
  | nil => exact ⟨scheduler,live,rfl,good⟩
  | cons address running =>
    obtain ⟨known,there,state⟩ := (good.busy address).mp (by rw [calls]; exact List.mem_cons_self)
    have here := (good.known address).mpr ⟨known,there⟩
    have idle := good.idle there state
    have nodup := good.nodup
    rw [calls] at nodup
    obtain ⟨once,nodup⟩ := List.nodup_cons.mp nodup
    have others : ∀ other, other ∈ running ↔ other ≠ address ∧ Busy scheduler.task other := by
      intro other
      rw [← good.busy,calls,List.mem_cons]
      constructor
      · intro member
        exact ⟨fun same => once (same ▸ member),.inr member⟩
      · rintro ⟨differs,member⟩
        exact member.resolve_left differs
    simp only [there,Option.bind_some]
    split
    · obtain ⟨timedTasksVector,ended,agrees,length⟩ := @endTask_done {scheduler with running} live address good.agrees here known
      refine ⟨_,without address live,ended,⟨agrees,length.trans_le good.short,?_,good.apart_none address,
        fun other => known_none good.known,nodup,?_⟩,good.told.freed there⟩
      · refine good.pending.congr fun other => or_congr_left (inState_none.trans (and_iff_right_of_imp ?_)).symm
        rintro waits rfl
        exact idle (.inl waits)
      · exact fun other => (others other).trans inState_none.symm
    · rename_i repeats
      obtain ⟨repeats,lasting⟩ := not_or.mp repeats
      obtain ⟨timeEvents,done,pending⟩ := @TimeEvents.Pending.added _ _ _ _ (scheduler.currentStep + known.secondsRepeat) good.pending new idle
        (room ⟨address,known,by rw [calls,List.head?_cons],there,repeats,lasting⟩)
      have run : Scheduler.executeIn {scheduler with running} event address known.secondsRepeat =
          some (.ok,{scheduler with running,timeEvents}) := by
        rw [Scheduler.executeIn,done]
        rfl
      simp only [run,Option.bind_some,ne_eq,not_true_eq_false,if_false]
      refine ⟨_,live,rfl,⟨good.agrees,good.short,?_,good.apart_some there _,fun other => known_some there good.known _,nodup,?_⟩,
        good.told.rescheduled there repeats lasting⟩
      · exact pending.congr fun other => by
          by_cases this : other = address
          · simp [this,Scheduler.setTask,inState_some]
          · simp [this,Scheduler.setTask,inState_some]
      · intro other
        refine (others other).trans ?_
        by_cases this : other = address
        · simp [this,Scheduler.setTask,inState_some]
        · simp [this,Scheduler.setTask,inState_some]

/-- Without room the assertion behind `xi_evtd_execute_in` fails. -/
theorem Good.finish_full (good : Good scheduler live) {event : Nat} (new : event ∉ scheduler.timeEvents.array)
    (reschedules : Reschedules scheduler) (full : ¬ scheduler.timeEvents.Room) : scheduler.finishTask event = none := by
  obtain ⟨address,known,head,there,repeats,lasting⟩ := reschedules
  obtain ⟨running,calls⟩ := List.head?_eq_some_iff.mp head
  obtain ⟨known',there',state⟩ := (good.busy address).mp (by rw [calls]; exact List.mem_cons_self)
  obtain rfl := Option.some.inj (there.symm.trans there')
  obtain ⟨timeEvents,done,_⟩ := @TimeEvents.Pending.refused _ _ _ _ (scheduler.currentStep + known.secondsRepeat) good.pending new
    (good.idle there state) full
  have run : Scheduler.executeIn {scheduler with running} event address known.secondsRepeat =
      some (.outOfMemory,{scheduler with running,timeEvents}) := by
    rw [Scheduler.executeIn,done]
    rfl
  rw [Scheduler.finishTask,calls]
  simp only [there,Option.bind_some,if_neg (not_or.mpr ⟨repeats,lasting⟩),run]
  rfl

/-- What a registration of a task does to the memory. -/
theorem Linked.alloc (linked : Linked scheduler live) (free : scheduler.task address = none) (unset : scheduler.other address = false)
    (secondsRepeat : Int) : scheduler.allocTask address secondsRepeat =
      {scheduler.setTask address (some ⟨secondsRepeat,.scheduled,scheduler.serials⟩) with serials := scheduler.serials + 1} := by
  have clear : Function.update scheduler.timeEvents.ptrToPosition address none = scheduler.timeEvents.ptrToPosition := by
    rw [Function.update_eq_self_iff]
    by_contra set
    exact idle_free free unset ((linked.pending.awaited address).mp (Ne.symm set))
  rw [Scheduler.allocTask,clear]
  rfl

theorem Linked.fresh (linked : Linked scheduler live) (free : scheduler.task address = none) : address ∉ live.map Prod.fst := by
  intro member
  obtain ⟨known,there⟩ := (linked.known address).mp member
  rw [free] at there
  cases there

/-- With memory a container has room for 64 tasks. -/
theorem Linked.served (linked : Linked scheduler live) : Served (scheduler.timedTasksVector,live) (.register maxTimedEvent address true) := by
  intro _ _ below
  have limit : maxTimedEvent.toInt = 64 := rfl
  by_cases room : scheduler.timedTasksVector.elemNo < scheduler.timedTasksVector.capacity
  · exact .inl room
  · refine .inr ⟨linked.agrees.managed,rfl,?_⟩
    change scheduler.timedTasksVector.elemNo < maxTimedEvent.toInt at below
    change scheduler.timedTasksVector.capacity < 64
    omega

theorem Good.add (good : Good scheduler live) {event : Nat} (free : scheduler.task address = none) (unset : scheduler.other address = false)
    (new : event ∉ scheduler.timeEvents.array) (secondsFromNow : Int) (repeatsForever : UInt8)
    (room : HasRoom scheduler (.add address event secondsFromNow repeatsForever)) :
    ∃ answer scheduler' live', scheduler.addTimedTask address event secondsFromNow repeatsForever = some (answer,scheduler') ∧
      Good scheduler' live' := by
  have idle : ∀ p, ¬ InState scheduler.task p address := fun p ⟨known,there,_⟩ => by simp [free] at there
  obtain ⟨answer,timedTasksVector,registered,outcome⟩ := register_done good.agrees (good.fresh free) good.served
  have short := register_short good.agrees good.short registered
  rw [Scheduler.addTimedTask]
  simp only [good.alloc free unset,Scheduler.setTask,registered,Option.bind_some]
  rcases outcome with ⟨rfl,n,agrees⟩ | ⟨refused,agrees⟩
  · obtain ⟨timeEvents,done,pending⟩ := @TimeEvents.Pending.added _ _ _ _ (scheduler.currentStep + secondsFromNow) good.pending new
      (idle_free free unset) (room ((register_ok_iff good.agrees.sound registered).mp rfl))
    simp only [agrees.find_live List.mem_cons_self,Option.bind_some,ne_eq,not_true_eq_false,if_false,Scheduler.executeIn,done,
      Option.map_some]
    refine ⟨_,_,(address,(n : Int)) :: live,rfl,⟨agrees,short,?_,?_,?_,good.nodup,?_⟩,?_⟩
    · refine pending.congr fun other => ?_
      by_cases this : other = address
      · simp [this,Scheduler.note,inState_some]
      · simp [this,Scheduler.note,inState_some]
    · intro other set
      have this : other ≠ address := by
        rintro rfl
        exact absurd (unset.symm.trans set) (by simp)
      exact (Function.update_of_ne this _ _).trans (good.apart other set)
    · intro other
      by_cases this : other = address
      · simp [this,Scheduler.note]
      · simpa [this,Scheduler.note] using good.known other
    · intro other
      refine (good.busy other).trans ?_
      by_cases this : other = address
      · simp [this,Scheduler.note,inState_some,idle]
      · simp [this,Scheduler.note,inState_some]
    · refine good.told.added free fun oneShot => ?_
      rw [if_neg]
      simpa using oneShot
  · simp only [ne_eq,refused,not_false_eq_true,if_true]
    have told := good.told.dropped
    have same : Function.update (Function.update scheduler.task address (some ⟨if ¬ repeatsForever = 0 then secondsFromNow else 0,.scheduled,
        scheduler.serials⟩)) address none = scheduler.task := by
      rw [Function.update_idem,Function.update_eq_self_iff,free]
    refine ⟨_,_,live,rfl,?_⟩
    simp only [Scheduler.freeTask,Scheduler.setTask,Scheduler.note,same]
    exact ⟨⟨agrees,short,good.pending,good.apart,good.known,good.nodup,good.busy⟩,told⟩

/-- Without room the task is freed and keeps its handle. -/
theorem Good.add_full (good : Good scheduler live) {event : Nat} (free : scheduler.task address = none)
    (unset : scheduler.other address = false) (new : event ∉ scheduler.timeEvents.array) (secondsFromNow : Int) (repeatsForever : UInt8)
    (takes : Takes scheduler) (full : ¬ scheduler.timeEvents.Room) {scheduler' : Scheduler}
    (done : perform scheduler (.add address event secondsFromNow repeatsForever) = some scheduler') :
    some address ∈ scheduler'.timedTasksVector.contents ∧ scheduler'.task address = none := by
  obtain ⟨answer,timedTasksVector,registered,outcome⟩ := register_done good.agrees (good.fresh free) good.served
  obtain rfl := (register_ok_iff good.agrees.sound registered).mpr takes
  obtain ⟨n,agrees⟩ := (outcome.resolve_right fun refused => refused.1 rfl).2
  obtain ⟨timeEvents,refused,_⟩ := @TimeEvents.Pending.refused _ _ _ _ (scheduler.currentStep + secondsFromNow) good.pending new
    (idle_free free unset) full
  rw [perform,Scheduler.addTimedTask] at done
  simp only [good.alloc free unset,Scheduler.setTask,registered,Option.bind_some,agrees.find_live List.mem_cons_self,ne_eq,
    not_true_eq_false,if_false,Scheduler.executeIn,refused,Option.map_some] at done
  obtain rfl := Option.some.inj done
  exact ⟨List.mem_of_getElem? (agrees.slot.mp List.mem_cons_self),Function.update_self _ _ _⟩

end Operations

end XivelyClient.TimedTask
