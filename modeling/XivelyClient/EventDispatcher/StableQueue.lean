import XivelyClient.EventDispatcher.BackLinks
import XivelyClient.Lib.Simulation
import XivelyClient.Lib.StableQueue

/-! The container of the time events is a stable priority queue, whose items can be named to be moved or dropped. -/
namespace XivelyClient.EventDispatcher

/-- What the container is for: events with their times, some of them named by handles. -/
structure EventQueue extends StableQueue Int Nat where
  named : Nat → Option Nat := fun _ => none

namespace EventQueue

def unname (queue : EventQueue) (event : Nat) : Nat → Option Nat :=
  fun handle => if queue.named handle = some event then none else queue.named handle

/-- How the queue may answer. An addition may be refused for want of memory. -/
inductive Answers (queue : EventQueue) : TimeEvents.Operation → XiState × Option Nat → EventQueue → Prop
  | added {event eventHandle : Nat} {time : Int} {handle : Option Nat} {alloc : Bool}
    (fresh : event ∉ queue.items.map Prod.snd) :
    Answers queue (.add event eventHandle time handle alloc) (.ok,none) ⟨queue.push time event,match handle with
      | some set => Function.update queue.named set (some event)
      | none => queue.named⟩
  | refused {event eventHandle : Nat} {time : Int} {handle : Option Nat} {alloc : Bool} :
    Answers queue (.add event eventHandle time handle alloc) (.outOfMemory,none) queue
  | empty (none' : queue.items = 0) : Answers queue .getTop (.ok,none) queue
  | top {time : Int} {event : Nat} (first : queue.First time event) :
    Answers queue .getTop (.ok,some event) ⟨queue.remove time event,queue.unname event⟩
  | restarted {handle event : Nat} {time newTime : Int} (named : queue.named handle = some event)
    (member : (time,event) ∈ queue.items) :
    Answers queue (.restart handle newTime) (.ok,none) {queue with toStableQueue := queue.change time newTime event}
  | cancelled {handle event : Nat} {time : Int} (named : queue.named handle = some event)
    (member : (time,event) ∈ queue.items) :
    Answers queue (.cancel handle) (.ok,some event) ⟨queue.remove time event,queue.unname event⟩

theorem Answers.distinct {queue queue' : EventQueue} {operation : TimeEvents.Operation} {answer : XiState × Option Nat}
    (distinct : queue.Distinct) (answers : Answers queue operation answer queue') : queue'.Distinct := by
  cases answers with
  | added fresh => exact distinct.push fresh
  | refused => exact distinct
  | empty none' => exact distinct
  | top first => exact distinct.remove
  | restarted named member => exact distinct.change member
  | cancelled named member => exact distinct.remove

end EventQueue

namespace TimeEvents

/-- A call that the callers may make, with its answer. -/
def Performs (events : TimeEvents) (operation : Operation) (answer : XiState × Option Nat) (after : TimeEvents) : Prop :=
  Allowed events operation ∧ events.operate operation = some (answer.1,answer.2,after)

def held (events : TimeEvents) (array : List Nat) : Multiset (Int × Nat) :=
  (array : Multiset Nat).map fun event => (events.time event,event)

def contents (events : TimeEvents) : Multiset (Int × Nat) := events.held events.array

/-- The others stay as they were, and in the same order. -/
def Kept (before after : TimeEvents) (event : Nat) : Prop :=
  after.array.filter (· ≠ event) = before.array.filter (· ≠ event) ∧ Others before after event

/-- What an operation leaves alone. -/
def Undisturbed (events : TimeEvents) : Operation → XiState × Option Nat → TimeEvents → Prop
  | .add event _ _ _ _,(state,_),after =>
    Kept events after event ∧ (state ≠ .ok → after.array = events.array ∧ after.capacity = events.capacity ∧
      after.ptrToPosition = events.ptrToPosition ∧ ∀ stored ∈ events.array, after.event stored = events.event stored)
  | .getTop,(_,removed),after => match removed with
    | some event => Kept events after event
    | none => after = events
  | .restart handle _,_,after | .cancel handle,_,after =>
    ∃ event, events.ptrToPosition handle = some event ∧ Kept events after event

/-- Those of one time stand in the order of their ages. -/
def Ages (events : TimeEvents) (age : Nat → Option Nat) (first second : Nat) : Prop :=
  events.time first = events.time second → ∀ age₁ age₂, age first = some age₁ → age second = some age₂ → age₁ < age₂

/-- The container holds what the queue holds. -/
structure Refines (events : TimeEvents) (queue : EventQueue) : Prop extends WellFormed events where
  contents : queue.items = events.contents
  named : queue.named = events.ptrToPosition
  young : ∀ event ∈ events.array, ∀ age, queue.age event = some age → age < queue.next
  stable : events.array.Pairwise (Ages events queue.age)

section Contents

variable {events after : TimeEvents} {front behind array : List Nat} {event : Nat}

theorem held_between : events.held (front ++ event :: behind) = (events.time event,event) ::ₘ events.held (front ++ behind) := by
  unfold held
  rw [Multiset.coe_eq_coe.mpr List.perm_middle,← Multiset.cons_coe,Multiset.map_cons]

theorem held_same (same : ∀ event ∈ array, after.time event = events.time event) : after.held array = events.held array := by
  apply Multiset.map_congr rfl
  intro event member
  rw [same event member]

theorem held_events : (events.held array).map Prod.snd = array := by
  unfold held
  rw [Multiset.map_map]
  exact Multiset.map_id _

theorem mem_held : (events.time event,event) ∈ events.held array ↔ event ∈ array := by
  constructor
  · intro member
    have second := Multiset.mem_map_of_mem Prod.snd member
    rw [held_events] at second
    exact second
  · intro member
    exact Multiset.mem_map_of_mem (fun event => (events.time event,event)) (Multiset.mem_coe.mpr member)

theorem time_of_held {time : Int} (member : (time,event) ∈ events.held array) : time = events.time event := by
  obtain ⟨_,_,same⟩ := Multiset.mem_map.mp member
  cases same
  rfl

/-- Only the event that moves may be given another age. -/
theorem ages_kept {age age' : Nat → Option Nat} (ages : array.Pairwise (Ages events age)) (absent : event ∉ array)
    (others : Others events after event) (same : ∀ other, other ≠ event → age' other = age other) :
    array.Pairwise (Ages after age') := by
  refine ages.imp_of_mem fun {first second} member member' ages => ?_
  have different : first ≠ event := fun is => absent (is ▸ member)
  have different' : second ≠ event := fun is => absent (is ▸ member')
  unfold Ages
  rw [others.time different,others.time different',same first different,same second different']
  exact ages

theorem filter_absent (absent : event ∉ array) : array.filter (· ≠ event) = array := by
  apply List.filter_eq_self.mpr
  intro other member
  exact decide_eq_true fun is => absent (is ▸ member)

theorem filter_between (absent : event ∉ front ++ behind) :
    (front ++ event :: behind).filter (· ≠ event) = front ++ behind := by
  rw [List.filter_append,List.filter_cons_of_neg (by simp),← List.filter_append]
  exact filter_absent absent

end Contents

section Steps

variable {events after : TimeEvents} {queue : EventQueue} {event : Nat} {front behind : List Nat}

/-- An event that leaves loses its name. -/
theorem Refines.unname (refines : Refines events queue) (member : event ∈ events.array) :
    queue.unname event = match (events.event event).timeEventHandle with
      | some set => Function.update events.ptrToPosition set none
      | none => events.ptrToPosition := by
  funext handle
  unfold EventQueue.unname
  rw [refines.named]
  by_cases set : events.ptrToPosition handle = some event
  · rw [if_pos set,(refines.pointed handle event set).2]
    exact (Function.update_self handle none events.ptrToPosition).symm
  · rw [if_neg set]
    cases known : (events.event event).timeEventHandle with
    | none => rfl
    | some mine =>
      have different : handle ≠ mine := fun same => set (same ▸ refines.pointing event member mine known)
      exact (Function.update_of_ne different _ _).symm

theorem Refines.removed (refines : Refines events queue) (wellFormed : WellFormed after)
    (split : events.array = front ++ event :: behind) (array : after.array = front ++ behind) (others : Others events after event)
    (unset : after.ptrToPosition = queue.unname event) :
    Refines after ⟨queue.remove (events.time event) event,queue.unname event⟩ := by
  have absent : event ∉ front ++ behind := not_mem_of_split refines.toWellFormed split
  have rest : after.array.Sublist events.array := by
    rw [array,split]
    exact (List.sublist_cons_self event behind).append_left front
  refine ⟨wellFormed,?_,unset.symm,?_,?_⟩
  · have same : after.held (front ++ behind) = events.held (front ++ behind) := by
      apply held_same
      intro other member
      exact others.time fun is => absent (is ▸ member)
    unfold StableQueue.remove TimeEvents.contents
    dsimp only
    rw [refines.contents,array,same]
    unfold TimeEvents.contents
    rw [split,held_between]
    exact Multiset.erase_cons_head _ _
  · intro other member
    exact refines.young other (rest.subset member)
  · exact ages_kept (refines.stable.sublist rest) (array ▸ absent) others fun _ _ => rfl

theorem Refines.pushed {eventHandle : Nat} {time : Int} {handle : Option Nat} (refines : Refines events queue)
    (wellFormed : WellFormed after) (new : event ∉ events.array) (split : events.array = front ++ behind)
    (array : after.array = front ++ event :: behind) (later : ∀ other ∈ behind, time < events.time other)
    (made : after.event event = ⟨eventHandle,time,(after.event event).position,handle⟩) (others : Others events after event)
    {named : Nat → Option Nat} (same : named = after.ptrToPosition) : Refines after ⟨queue.push time event,named⟩ := by
  have timed : after.time event = time := congrArg TimeEvent.timeOfExecution made
  have absent : event ∉ front ++ behind := split ▸ new
  have different (other : Nat) (member : other ∈ front ++ behind) : other ≠ event := fun is => absent (is ▸ member)
  refine ⟨wellFormed,?_,same,?_,?_⟩
  · unfold StableQueue.push
    dsimp only
    rw [refines.contents]
    unfold TimeEvents.contents
    rw [split,array,held_between,timed]
    congr 1
    exact (held_same fun other member => others.time (different other member)).symm
  · intro other member age known
    have known : Function.update queue.age event (some queue.next) other = some age := known
    by_cases is : other = event
    · subst is
      rw [Function.update_self] at known
      cases known
      exact Nat.lt_succ_self _
    · rw [Function.update_of_ne is] at known
      have old : other ∈ events.array := by
        rw [split,mem_middle is,← array]
        exact member
      exact Nat.lt_succ_of_lt (refines.young other old age known)
  · have old : events.array.Pairwise (Ages after (Function.update queue.age event (some queue.next))) :=
      ages_kept refines.stable new others fun other is => Function.update_of_ne is _ _
    change after.array.Pairwise (Ages after (Function.update queue.age event (some queue.next)))
    rw [array]
    refine pairwise_between (split ▸ old) ?_ ?_
    · intro other member _ age₁ age₂ known known'
      have is := different other (List.mem_append_left _ member)
      rw [Function.update_of_ne is] at known
      rw [Function.update_self] at known'
      cases known'
      exact refines.young other (split ▸ List.mem_append_left _ member) age₁ known
    · intro other member equal
      have is := different other (List.mem_append_right _ member)
      rw [timed,others.time is] at equal
      exact absurd equal (Int.ne_of_lt (later other member))

theorem Refines.moved {front' behind' : List Nat} {newTime : Int} (refines : Refines events queue) (wellFormed : WellFormed after)
    (split : events.array = front ++ event :: behind) (array : after.array = front' ++ event :: behind')
    (kept : front' ++ behind' = front ++ behind) (timed : after.time event = newTime) (others : Others events after event)
    (same : after.ptrToPosition = events.ptrToPosition) :
    Refines after {queue with toStableQueue := queue.change (events.time event) newTime event} := by
  have absent : event ∉ front ++ behind := not_mem_of_split refines.toWellFormed split
  have different (other : Nat) (member : other ∈ front ++ behind) : other ≠ event := fun is => absent (is ▸ member)
  have rest : (front ++ behind).Sublist events.array := by
    rw [split]
    exact (List.sublist_cons_self event behind).append_left front
  refine ⟨wellFormed,?_,refines.named.trans same.symm,?_,?_⟩
  · unfold StableQueue.change
    dsimp only
    rw [refines.contents]
    unfold TimeEvents.contents
    rw [split,array,held_between,held_between,Multiset.erase_cons_head,timed,kept]
    congr 1
    exact (held_same fun other member => others.time (different other member)).symm
  · intro other member age known
    have known : Function.update queue.age event none other = some age := known
    by_cases is : other = event
    · subst is
      rw [Function.update_self] at known
      exact absurd known.symm (Option.some_ne_none age)
    · rw [Function.update_of_ne is] at known
      have old : other ∈ events.array := by
        rw [split,← mem_middle is,← kept,mem_middle is,← array]
        exact member
      exact refines.young other old age known
  · have old : (front ++ behind).Pairwise (Ages after (Function.update queue.age event none)) :=
      ages_kept (refines.stable.sublist rest) absent others fun other is => Function.update_of_ne is _ _
    change after.array.Pairwise (Ages after (Function.update queue.age event none))
    rw [array]
    refine pairwise_between (kept ▸ old) ?_ ?_
    · intro other member _ age₁ age₂ _ known
      rw [Function.update_self] at known
      exact absurd known.symm (Option.some_ne_none age₂)
    · intro other member _ age₁ age₂ known
      rw [Function.update_self] at known
      exact absurd known.symm (Option.some_ne_none age₁)

end Steps

section Runs

variable {events after : TimeEvents} {queue : EventQueue} {operation : Operation} {answer : XiState × Option Nat}

theorem performs_operated (wellFormed : WellFormed events) (performs : Performs events operation answer after) :
    Operated events operation answer.1 answer.2 after ∧ WellFormed after := by
  obtain ⟨allowed,same⟩ := performs
  obtain ⟨state,removed,after',same',operated,wellFormed',_⟩ := operate_wellFormed wellFormed allowed
  cases same.symm.trans same'
  exact ⟨operated,wellFormed'⟩

/-- Each call is one answer of the queue. -/
theorem Refines.answers (refines : Refines events queue) (performs : Performs events operation answer after) :
    ∃ queue', EventQueue.Answers queue operation answer queue' ∧ Refines after queue' := by
  obtain ⟨operated,wellFormed⟩ := performs_operated refines.toWellFormed performs
  have allowed := performs.1
  obtain ⟨state,removed⟩ := answer
  cases operated with
  | @added event eventHandle time handle alloc front behind _ split array earlier later made others pointed =>
    refine ⟨_,.added ?_,refines.pushed wellFormed allowed.1 split array later made others ?_⟩
    · rw [refines.contents]
      unfold TimeEvents.contents
      rw [held_events]
      exact allowed.1
    · rw [pointed,refines.named]
      cases handle with
      | none => rfl
      | some set => rfl
  | @full event eventHandle time handle alloc =>
    have same := @make_others events event eventHandle time
    have stored (other : Nat) (member : other ∈ events.array) : other ≠ event := fun is => allowed.1 (is ▸ member)
    refine ⟨queue,.refused,wellFormed,?_,refines.named,refines.young,ages_kept refines.stable allowed.1 same fun _ _ => rfl⟩
    rw [refines.contents]
    exact (held_same fun other member => same.time (stored other member)).symm
  | empty array =>
    refine ⟨queue,.empty ?_,refines⟩
    rw [refines.contents]
    unfold TimeEvents.contents
    rw [array]
    rfl
  | @top event rest _ split array others pointed =>
    have sorted := refines.sorted
    have stable := refines.stable
    rw [split] at sorted stable
    have member : event ∈ events.array := split ▸ List.mem_cons_self
    refine ⟨_,.top ⟨?_,fun item held => ?_,fun other held age age' known known' => ?_⟩,
      @Refines.removed events after queue event [] rest refines wellFormed split array others
        (pointed.trans (refines.unname member).symm)⟩
    · rw [refines.contents]
      exact mem_held.mpr member
    · rw [refines.contents] at held
      unfold TimeEvents.contents at held
      obtain ⟨other,stored,same⟩ := Multiset.mem_map.mp held
      rw [← same]
      rcases List.mem_cons.mp (split ▸ stored : other ∈ event :: rest) with is | behind
      · rw [is]
      · exact (List.pairwise_cons.mp sorted).1 other behind
    · rw [refines.contents] at held
      have stored : other ∈ events.array := mem_held.mp (time_of_held held ▸ held)
      rcases List.mem_cons.mp (split ▸ stored : other ∈ event :: rest) with is | behind
      · subst is
        rw [known] at known'
        cases known'
        exact Nat.le_refl _
      · exact Nat.le_of_lt ((List.pairwise_cons.mp stable).1 other behind (time_of_held held) age age' known known')
  | @restarted handle event newTime front front' behind behind' _ pointed split array kept earlier later made others same =>
    have member : event ∈ events.array := split ▸ List.mem_append_right _ List.mem_cons_self
    refine ⟨_,.restarted (refines.named ▸ pointed) ?_,
      refines.moved wellFormed split array kept (congrArg TimeEvent.timeOfExecution made) others same⟩
    rw [refines.contents]
    exact mem_held.mpr member
  | @cancelled handle event front behind _ pointed split array others unset =>
    have member : event ∈ events.array := split ▸ List.mem_append_right _ List.mem_cons_self
    refine ⟨_,.cancelled (refines.named ▸ pointed) ?_,refines.removed wellFormed split array others ?_⟩
    · rw [refines.contents]
      exact mem_held.mpr member
    · rw [refines.unname member,(refines.pointed handle event pointed).2]
      exact unset

theorem undisturbed (wellFormed : WellFormed events) (performs : Performs events operation answer after) :
    Undisturbed events operation answer after := by
  obtain ⟨operated,_⟩ := performs_operated wellFormed performs
  have allowed := performs.1
  obtain ⟨state,removed⟩ := answer
  cases operated with
  | @added event eventHandle time handle alloc front behind _ split array earlier later made others pointed =>
    have absent : event ∉ front ++ behind := split ▸ allowed.1
    refine ⟨⟨?_,others⟩,fun failed => absurd rfl failed⟩
    rw [array,split,filter_between absent]
    exact (filter_absent absent).symm
  | @full event eventHandle time handle alloc =>
    refine ⟨⟨rfl,make_others⟩,fun _ => ⟨rfl,rfl,rfl,fun stored member => ?_⟩⟩
    have different : stored ≠ event := fun is => allowed.1 (is ▸ member)
    exact Function.update_of_ne different _ _
  | empty array => rfl
  | @top event rest _ split array others pointed =>
    have absent : event ∉ [] ++ rest := @not_mem_of_split events wellFormed [] rest event split
    have dropped := @filter_between [] rest event absent
    refine ⟨?_,others⟩
    rw [array,split]
    exact (filter_absent absent).trans dropped.symm
  | @restarted handle event newTime front front' behind behind' _ pointed split array kept earlier later made others same =>
    have absent : event ∉ front ++ behind := not_mem_of_split wellFormed split
    refine ⟨event,pointed,?_,others⟩
    rw [array,split,filter_between absent,filter_between (kept ▸ absent),kept]
  | @cancelled handle event front behind _ pointed split array others unset =>
    have absent : event ∉ front ++ behind := not_mem_of_split wellFormed split
    refine ⟨event,pointed,?_,others⟩
    rw [array,split,filter_between absent]
    exact filter_absent absent

theorem create_refines : Refines create {} :=
  ⟨create_wellFormed,rfl,rfl,fun _ member => (List.not_mem_nil member).elim,List.Pairwise.nil⟩

/-- Whatever calls were made, the queue could have answered them in the same way and now holds what the container holds, each
event once. The next call is answered too and leaves alone what it should. -/
theorem stableQueue_run {trace : List (Operation × (XiState × Option Nat))} (run : Simulation.Run Performs create trace events) :
    ∃ queue, Simulation.Run EventQueue.Answers {} trace queue ∧ queue.items = events.contents ∧ queue.Distinct ∧
      ∀ operation, Allowed events operation → ∃ answer after, Performs events operation answer after ∧
        Undisturbed events operation answer after := by
  obtain ⟨queue,run',refines⟩ := run.simulated (fun _ _ _ _ _ refines performs => refines.answers performs) create_refines
  have distinct : queue.Distinct :=
    run'.invariant (I := fun queue => queue.Distinct) (fun _ _ _ _ distinct answers => answers.distinct distinct) Multiset.nodup_zero
  refine ⟨queue,run',refines.contents,distinct,fun operation allowed => ?_⟩
  obtain ⟨state,removed,after,same,_⟩ := operate_wellFormed refines.toWellFormed allowed
  have performs : Performs events operation (state,removed) after := ⟨allowed,same⟩
  exact ⟨_,_,performs,undisturbed refines.toWellFormed performs⟩

/-- Of two events of one time the first one leaves first; the other one is restarted. -/
def someTrace : List (Operation × (XiState × Option Nat)) :=
  [(.add 10 1 5 none true,(.ok,none)),(.add 11 2 5 (some 101) true,(.ok,none)),(.getTop,(.ok,some 10)),(.restart 101 3,(.ok,none))]

def someEvents : TimeEvents := (((create.step (.add 10 1 5 none true)).step (.add 11 2 5 (some 101) true)).step .getTop).step (.restart 101 3)

theorem stableQueue_run_some :
    ∃ queue, Simulation.Run EventQueue.Answers {} someTrace queue ∧ queue.items = someEvents.contents ∧ queue.Distinct ∧
      ∀ operation, Allowed someEvents operation → ∃ answer after, Performs someEvents operation answer after ∧
        Undisturbed someEvents operation answer after := by
  apply stableQueue_run
  have first : Allowed create (.add 10 1 5 none true) := ⟨by decide,fun set is => (Option.some_ne_none set is.symm).elim⟩
  have second : Allowed (create.step (.add 10 1 5 none true)) (.add 11 2 5 (some 101) true) := ⟨by decide,fun set is => rfl⟩
  have fourth : Allowed (((create.step (.add 10 1 5 none true)).step (.add 11 2 5 (some 101) true)).step .getTop) (.restart 101 3) :=
    (by decide : (((create.step (.add 10 1 5 none true)).step (.add 11 2 5 (some 101) true)).step .getTop).ptrToPosition 101 ≠ none)
  exact .step (.step (.step (.step .start ⟨first,rfl⟩) ⟨second,rfl⟩) ⟨trivial,rfl⟩) ⟨fourth,rfl⟩

end Runs

end TimeEvents

end XivelyClient.EventDispatcher
