import XivelyClient.EventDispatcher.Positions
import XivelyClient.Lib.Runs

/-! The operations on time events, each with all that it does. -/
namespace XivelyClient.EventDispatcher.TimeEvents

/-- The events are in the order of their times, each knows its place, and handles and events know each other. -/
structure WellFormed (events : TimeEvents) : Prop extends Placed events where
  sorted : events.array.Pairwise fun first second => events.time first ≤ events.time second
  pointed : ∀ handle event, events.ptrToPosition handle = some event →
    event ∈ events.array ∧ (events.event event).timeEventHandle = some handle
  pointing : ∀ event ∈ events.array, ∀ handle, (events.event event).timeEventHandle = some handle →
    events.ptrToPosition handle = some event

/-- The owner of an event fills it in. -/
def make (events : TimeEvents) (event eventHandle : Nat) (time : Int) : TimeEvents :=
  {events with
    event := Function.update events.event event {eventHandle := eventHandle,timeOfExecution := time,timeEventHandle := none}}

inductive Operation
  | add (event eventHandle : Nat) (time : Int) (handle : Option Nat) (alloc : Bool)
  | getTop
  | restart (handle : Nat) (newTime : Int)
  | cancel (handle : Nat)
  deriving DecidableEq, Repr

/-- The state and the event that the call gives back. -/
def operate (events : TimeEvents) : Operation → Option (XiState × Option Nat × TimeEvents)
  | .add event eventHandle time handle alloc =>
    ((events.make event eventHandle time).add event handle alloc).map fun (state,events) => (state,none,events)
  | .getTop => events.getTop.map fun (event,events) => (.ok,event,events)
  | .restart handle newTime => (events.restart handle newTime).map fun (state,events) => (state,none,events)
  | .cancel handle => events.cancel handle

/-- What the callers see to: an event is added while it is not stored, with a handle that is unset, and a handle that is
restarted or cancelled is set. -/
def Allowed (events : TimeEvents) : Operation → Prop
  | .add event _ _ handle _ => event ∉ events.array ∧ ∀ set, handle = some set → events.ptrToPosition set = none
  | .getTop => True
  | .restart handle _ | .cancel handle => events.ptrToPosition handle ≠ none

/-- Other events keep all but their positions. -/
def Others (before after : TimeEvents) (event : Nat) : Prop :=
  ∀ other, other ≠ event → after.event other = {before.event other with position := (after.event other).position}

/-- How an operation goes. -/
inductive Operated (events : TimeEvents) : Operation → XiState → Option Nat → TimeEvents → Prop
  | added {event eventHandle : Nat} {time : Int} {handle : Option Nat} {alloc : Bool} {front behind : List Nat}
    {after : TimeEvents} (split : events.array = front ++ behind) (array : after.array = front ++ event :: behind)
    (earlier : ∀ other ∈ front, events.time other ≤ time) (later : ∀ other ∈ behind, time < events.time other)
    (made : after.event event = ⟨eventHandle,time,(after.event event).position,handle⟩)
    (others : Others events after event)
    (pointed : after.ptrToPosition = match handle with
      | some set => Function.update events.ptrToPosition set (some event)
      | none => events.ptrToPosition) :
    Operated events (.add event eventHandle time handle alloc) .ok none after
  | full {event eventHandle : Nat} {time : Int} {handle : Option Nat} {alloc : Bool} :
    Operated events (.add event eventHandle time handle alloc) .outOfMemory none (events.make event eventHandle time)
  | empty (array : events.array = []) : Operated events .getTop .ok none events
  | top {event : Nat} {rest : List Nat} {after : TimeEvents} (split : events.array = event :: rest) (array : after.array = rest)
    (others : Others events after event)
    (pointed : after.ptrToPosition = match (events.event event).timeEventHandle with
      | some set => Function.update events.ptrToPosition set none
      | none => events.ptrToPosition) :
    Operated events .getTop .ok (some event) after
  | restarted {handle event : Nat} {newTime : Int} {front front' behind behind' : List Nat} {after : TimeEvents}
    (pointed : events.ptrToPosition handle = some event) (split : events.array = front ++ event :: behind)
    (array : after.array = front' ++ event :: behind') (kept : front' ++ behind' = front ++ behind)
    (earlier : ∀ other ∈ front', events.time other ≤ newTime) (later : ∀ other ∈ behind', newTime ≤ events.time other)
    (made : after.event event = {events.event event with timeOfExecution := newTime,position := (after.event event).position})
    (others : Others events after event) (same : after.ptrToPosition = events.ptrToPosition) :
    Operated events (.restart handle newTime) .ok none after
  | cancelled {handle event : Nat} {front behind : List Nat} {after : TimeEvents}
    (pointed : events.ptrToPosition handle = some event) (split : events.array = front ++ event :: behind)
    (array : after.array = front ++ behind) (others : Others events after event)
    (unset : after.ptrToPosition = Function.update events.ptrToPosition handle none) :
    Operated events (.cancel handle) .ok (some event) after

section Sorting

variable {events after : TimeEvents} {front behind xs ys : List Nat} {event : Nat}

/-- In a sorted list the last element speaks for all, and the first one too. -/
theorem all_le_of_last {time : Nat → Int} {bound : Int} (sorted : front.Pairwise fun first second => time first ≤ time second)
    (last : ∀ other, front.getLast? = some other → time other ≤ bound) : ∀ other ∈ front, time other ≤ bound := by
  intro other member
  induction front using List.reverseRecOn with
  | nil => exact (List.not_mem_nil member).elim
  | append_singleton front final ih =>
    have ends : time final ≤ bound := last final (by rw [List.getLast?_append]; rfl)
    rcases List.mem_append.mp member with old | new
    · exact Int.le_trans ((List.pairwise_append.mp sorted).2.2 other old final List.mem_cons_self) ends
    · cases List.mem_singleton.mp new
      exact ends

theorem all_ge_of_first {time : Nat → Int} {bound : Int} (sorted : behind.Pairwise fun first second => time first ≤ time second)
    (first : ∀ other, behind.head? = some other → bound ≤ time other) : ∀ other ∈ behind, bound ≤ time other := by
  intro other member
  cases behind with
  | nil => exact (List.not_mem_nil member).elim
  | cons head behind =>
    have starts : bound ≤ time head := first head rfl
    rcases List.mem_cons.mp member with same | old
    · rw [same]
      exact starts
    · exact Int.le_trans starts ((List.pairwise_cons.mp sorted).1 other old)

theorem pairwise_between {R : Nat → Nat → Prop} (kept : (front ++ behind).Pairwise R) (left : ∀ other ∈ front, R other event)
    (right : ∀ other ∈ behind, R event other) : (front ++ event :: behind).Pairwise R := by
  obtain ⟨before,behind',across⟩ := List.pairwise_append.mp kept
  refine List.pairwise_append.mpr ⟨before,List.pairwise_cons.mpr ⟨right,behind'⟩,fun first member second member' => ?_⟩
  rcases List.mem_cons.mp member' with same | old
  · rw [same]
    exact left first member
  · exact across first member second old

theorem Others.time (others : Others events after event) {other : Nat} (different : other ≠ event) :
    after.time other = events.time other := by
  unfold TimeEvents.time
  rw [others other different]

theorem Others.handle (others : Others events after event) {other : Nat} (different : other ≠ event) :
    (after.event other).timeEventHandle = (events.event other).timeEventHandle := by
  rw [others other different]

theorem mem_split (member : event ∈ events.array) : ∃ front behind, events.array = front ++ event :: behind :=
  List.append_of_mem member

/-- The last event leaves the vector, and its handle is unset. -/
theorem removed (placed : Placed events) (array : events.array = front ++ [event]) :
    ∃ after, events.vectorDelLast.disposeTimeEvent event = after ∧ after.array = front ∧ Placed after ∧
      (∀ other, after.event other = events.event other) ∧
      after.ptrToPosition = match (events.event event).timeEventHandle with
        | some set => Function.update events.ptrToPosition set none
        | none => events.ptrToPosition := by
  have dropped : events.array.dropLast = front := by
    rw [array,List.dropLast_concat]
  have still : Placed events.vectorDelLast := by
    refine ⟨?_,fun index other at' => ?_⟩
    · exact placed.nodup.sublist (List.dropLast_sublist _)
    · apply placed.position
      have at' : events.array.dropLast[index]? = some other := at'
      rw [dropped] at at'
      have small := (List.getElem?_eq_some_iff.mp at').1
      rw [array,List.getElem?_append_left small]
      exact at'
  refine ⟨_,rfl,?_,?_,?_,?_⟩ <;> unfold disposeTimeEvent
  · split
    · exact dropped
    · exact dropped
  · split
    · exact ⟨still.nodup,still.position⟩
    · exact still
  · intro other
    split <;> rfl
  · change (match (events.event event).timeEventHandle with
      | some handle => {events.vectorDelLast with ptrToPosition := Function.update events.ptrToPosition handle none}
      | none => events.vectorDelLast).ptrToPosition = _
    split <;> rfl

end Sorting

section Adding

variable {events : TimeEvents} {event eventHandle : Nat} {time : Int} {alloc : Bool}

theorem make_others : Others events (events.make event eventHandle time) event := by
  intro other different
  unfold make
  dsimp only
  rw [Function.update_of_ne different]

theorem make_event : (events.make event eventHandle time).event event = ⟨eventHandle,time,0,none⟩ := by
  unfold make
  dsimp only
  rw [Function.update_self]

theorem make_placed (placed : Placed events) (new : event ∉ events.array) : Placed (events.make event eventHandle time) := by
  refine ⟨placed.nodup,fun index other at' => ?_⟩
  have different : other ≠ event := fun same => new (same ▸ List.mem_of_getElem? at')
  unfold make
  dsimp only
  rw [Function.update_of_ne different]
  exact placed.position index other at'

theorem vectorPush_cases (alloc : Bool) : events.vectorPush event alloc = none ∨
    ∃ capacity, events.vectorPush event alloc = some {events with array := events.array ++ [event],capacity := capacity} := by
  unfold vectorPush
  split
  · split
    · exact .inr ⟨_,rfl⟩
    · exact .inl rfl
  · exact .inr ⟨events.capacity,rfl⟩

/-- The new last element is told its place. -/
theorem pushed_placed (placed : Placed events) (new : event ∉ events.array) (capacity : Nat) :
    Placed ({events with array := events.array ++ [event],capacity := capacity}.setPosition event events.array.length) := by
  refine ⟨?_,fun index other at' => ?_⟩
  · exact List.nodup_append.mpr ⟨placed.nodup,List.nodup_singleton _,fun one member two member' same => by
      cases List.mem_singleton.mp member'
      exact new (same ▸ member)⟩
  · have at' : (events.array ++ [event])[index]? = some other := at'
    unfold setPosition
    dsimp only
    rcases Nat.lt_or_ge index events.array.length with old | last
    · rw [List.getElem?_append_left old] at at'
      have different : other ≠ event := fun same => new (same ▸ List.mem_of_getElem? at')
      rw [Function.update_of_ne different]
      exact placed.position index other at'
    · have inside := (List.getElem?_eq_some_iff.mp at').1
      have here : index = events.array.length := by
        rw [List.length_append,List.length_singleton] at inside
        omega
      subst here
      rw [getElem?_middle] at at'
      cases at'
      rw [Function.update_self]

/-- An event is put behind all that are not later. -/
theorem insertTimeEvent_cases (placed : Placed events) (sorted : events.array.Pairwise fun a b => events.time a ≤ events.time b)
    (new : event ∉ events.array) :
    events.insertTimeEvent event alloc = some (none,events) ∨
    ∃ front behind after, events.insertTimeEvent event alloc = some (some event,after) ∧ events.array = front ++ behind ∧
      after.array = front ++ event :: behind ∧ Placed after ∧ after.ptrToPosition = events.ptrToPosition ∧
      (∀ other, after.event other = {events.event other with position := (after.event other).position}) ∧
      (∀ other ∈ front, events.time other ≤ events.time event) ∧ ∀ other ∈ behind, events.time event < events.time other := by
  unfold insertTimeEvent
  rcases @vectorPush_cases events event alloc with none' | ⟨capacity,pushed⟩
  · rw [none']
    exact .inl rfl
  · rw [pushed]
    dsimp only
    have last : ({events with array := events.array ++ [event],capacity := capacity} : TimeEvents).elemNo - 1 =
        (events.array.length : Nat) := by
      unfold elemNo
      rw [List.length_append,List.length_singleton]
      omega
    rw [last]
    have placed' := pushed_placed placed new capacity
    have same : ∀ other, ({events with array := events.array ++ [event],capacity := capacity}.setPosition event
        events.array.length).event other = {events.event other with position := ((TimeEvents.setPosition
          {events with array := events.array ++ [event],capacity := capacity} event events.array.length).event other).position} :=
      (@setPosition_shuffled {events with array := events.array ++ [event],capacity := capacity} event _).event
    generalize made : ({events with array := events.array ++ [event],capacity := capacity} : TimeEvents).setPosition event
      events.array.length = started at placed' same
    have array : started.array = events.array ++ event :: [] := by
      rw [← made]
      rfl
    have pointed : started.ptrToPosition = events.ptrToPosition := by
      rw [← made]
      rfl
    have time : started.time = events.time := by
      funext other
      unfold TimeEvents.time
      rw [same other]
    obtain ⟨front,behind,after,split,bubbled,order,placed'',shuffled,later,earlier⟩ := bubble_down placed' array
    rw [bubbleCore_down array,bubbled]
    refine .inr ⟨front,behind,after,?_,split,?_,placed'',shuffled.ptrToPosition.trans pointed,fun other => ?_,?_,?_⟩
    · have here : after.array[((front.length : Int)).toNat]? = some event := by
        rw [order,Int.toNat_natCast]
        exact getElem?_middle
      rw [Option.bind_some]
      dsimp only
      rw [here]
      rfl
    · rw [order,List.append_nil]
    · rw [shuffled.event other,same other]
    · rw [time] at earlier
      exact all_le_of_last (List.pairwise_append.mp (split ▸ sorted)).1 earlier
    · rw [time] at later
      exact later

theorem add_operated {handle : Option Nat} (wellFormed : WellFormed events) (new : event ∉ events.array)
    (unset : ∀ set, handle = some set → events.ptrToPosition set = none) :
    ∃ state removed after, events.operate (.add event eventHandle time handle alloc) = some (state,removed,after) ∧
      Operated events (.add event eventHandle time handle alloc) state removed after ∧ Placed after := by
  have others := @make_others events event eventHandle time
  have sorted : (events.make event eventHandle time).array.Pairwise fun a b =>
      (events.make event eventHandle time).time a ≤ (events.make event eventHandle time).time b := by
    refine wellFormed.sorted.imp_of_mem fun {a b} member member' less => ?_
    rw [others.time fun same => new (same ▸ member),others.time fun same => new (same ▸ member')]
    exact less
  have free : (handle.bind (events.make event eventHandle time).ptrToPosition).isNone = true := by
    cases handle with
    | none => rfl
    | some set =>
      change (events.ptrToPosition set).isNone = true
      rw [unset set rfl]
      rfl
  have made : (events.make event eventHandle time).event event = ⟨eventHandle,time,0,none⟩ := make_event
  have timed : (events.make event eventHandle time).time event = time := by
    unfold TimeEvents.time
    rw [made]
  unfold operate add
  dsimp only
  rw [if_pos free]
  rcases @insertTimeEvent_cases _ event alloc (make_placed wellFormed.toPlaced new) sorted new with
    full | ⟨front,behind,after,inserted,split,array,placed,pointed,same,earlier,later⟩
  · rw [full]
    exact ⟨_,_,_,rfl,.full,make_placed wellFormed.toPlaced new⟩
  · rw [inserted,Option.bind_some]
    dsimp only
    rw [if_pos rfl]
    have split : events.array = front ++ behind := split
    have earlier' (other : Nat) (member : other ∈ front) : events.time other ≤ time := by
      have bound := earlier other member
      rw [timed,others.time fun same => new (same ▸ split ▸ List.mem_append_left _ member)] at bound
      exact bound
    have later' (other : Nat) (member : other ∈ behind) : time < events.time other := by
      have bound := later other member
      rw [timed,others.time fun same => new (same ▸ split ▸ List.mem_append_right _ member)] at bound
      exact bound
    have others' : Others events after event := fun other different => by rw [same other,others other different]
    cases handle with
    | none =>
      refine ⟨_,_,_,rfl,.added split array earlier' later' ?_ others' pointed,placed⟩
      rw [same event,made]
    | some set =>
      refine ⟨_,_,_,rfl,.added split array earlier' later' ?_ (fun other different => ?_) ?_,⟨placed.nodup,fun index other at' => ?_⟩⟩
      · dsimp only
        rw [Function.update_self,same event,made]
      · dsimp only
        rw [Function.update_of_ne different]
        exact others' other different
      · exact congrArg (fun pointed => Function.update pointed set (some event)) pointed
      · have known := placed.position index other at'
        dsimp only
        by_cases different : other = event
        · subst different
          rw [Function.update_self]
          exact known
        · rw [Function.update_of_ne different]
          exact known

end Adding

section Removing

variable {events : TimeEvents} {event handle : Nat} {newTime : Int}

theorem getTop_operated (wellFormed : WellFormed events) :
    ∃ state removed after, events.operate .getTop = some (state,removed,after) ∧
      Operated events .getTop state removed after ∧ Placed after := by
  unfold operate getTop
  cases array : events.array with
  | nil => exact ⟨_,_,_,rfl,.empty array,wellFormed.toPlaced⟩
  | cons top rest =>
    have moved : ∃ between, (if 1 < (top :: rest).length then events.moveToTheEnd 0 else some events) = some between ∧
        between.array = rest ++ [top] ∧ Placed between ∧ Shuffled events between := by
      cases rest with
      | nil => exact ⟨events,rfl,array,wellFormed.toPlaced,.refl events⟩
      | cons next rest =>
        rw [if_pos (by simp)]
        exact @moveToTheEnd_end events [] (next :: rest) top wellFormed.toPlaced array
    obtain ⟨between,moved,order,placed,shuffled⟩ := moved
    obtain ⟨after,gone,array',placed',same,pointed⟩ := removed placed order
    dsimp only
    rw [moved,Option.map_some,Option.map_some]
    refine ⟨_,_,_,rfl,.top array (gone ▸ array') (fun other different => ?_) ?_,gone ▸ placed'⟩
    · rw [gone,same other,shuffled.event other]
    · rw [gone,pointed,shuffled.timeEventHandle top,shuffled.ptrToPosition]

/-- The event of a handle is found where its position says. -/
theorem found (wellFormed : WellFormed events) (pointed : events.ptrToPosition handle = some event) :
    ∃ front behind, events.array = front ++ event :: behind ∧ (events.event event).position = front.length ∧
      events.elemNo = front.length + behind.length + 1 ∧ (events.event event).timeEventHandle = some handle := by
  obtain ⟨member,known⟩ := wellFormed.pointed handle event pointed
  obtain ⟨front,behind,split⟩ := mem_split member
  exact ⟨front,behind,split,wellFormed.toPlaced.here split,elemNo_eq split,known⟩

theorem cancel_operated (wellFormed : WellFormed events) (set : events.ptrToPosition handle ≠ none) :
    ∃ state removed after, events.operate (.cancel handle) = some (state,removed,after) ∧
      Operated events (.cancel handle) state removed after ∧ Placed after := by
  obtain ⟨event,pointed⟩ := Option.ne_none_iff_exists'.mp set
  obtain ⟨front,behind,split,position,long,known⟩ := found wellFormed pointed
  have moved : ∃ between, (if ((front.length : Nat) : Int) < events.elemNo - 1 then events.moveToTheEnd front.length
      else some events) = some between ∧ between.array = (front ++ behind) ++ [event] ∧ Placed between ∧
      Shuffled events between := by
    by_cases last : ((front.length : Nat) : Int) < events.elemNo - 1
    · rw [if_pos last]
      exact moveToTheEnd_end wellFormed.toPlaced split
    · have none' : behind = [] := List.length_eq_zero_iff.mp (by omega)
      rw [if_neg last]
      refine ⟨events,rfl,?_,wellFormed.toPlaced,.refl events⟩
      rw [split,none',List.append_nil]
  obtain ⟨between,moved,order,placed,shuffled⟩ := moved
  obtain ⟨after,gone,array',placed',same,unset⟩ := removed placed order
  have inside : ¬(events.elemNo ≤ ((front.length : Nat) : Int) ∨ ((front.length : Nat) : Int) < 0) := by omega
  have last : between.array.getLast? = some event := by
    rw [order,List.getLast?_append]
    rfl
  unfold operate cancel
  dsimp only
  rw [pointed,Option.bind_some,position,if_neg inside,moved,Option.bind_some,last,Option.map_some]
  refine ⟨_,_,_,rfl,.cancelled pointed split (gone ▸ array') (fun other different => ?_) ?_,gone ▸ placed'⟩
  · rw [gone,same other,shuffled.event other]
  · rw [gone,unset,shuffled.timeEventHandle event,known,shuffled.ptrToPosition]

theorem setTime_placed (placed : Placed events) (time : Int) : Placed (events.setTime event time) := by
  refine ⟨placed.nodup,fun index other at' => ?_⟩
  have known := placed.position index other at'
  unfold setTime
  dsimp only
  by_cases different : other = event
  · subst different
    rw [Function.update_self]
    exact known
  · rw [Function.update_of_ne different]
    exact known

theorem restart_operated (wellFormed : WellFormed events) (set : events.ptrToPosition handle ≠ none) :
    ∃ state removed after, events.operate (.restart handle newTime) = some (state,removed,after) ∧
      Operated events (.restart handle newTime) state removed after ∧ Placed after := by
  obtain ⟨event,pointed⟩ := Option.ne_none_iff_exists'.mp set
  obtain ⟨front,behind,split,position,long,known⟩ := found wellFormed pointed
  have inside : ¬(events.elemNo ≤ ((front.length : Nat) : Int) ∨ ((front.length : Nat) : Int) < 0) := by omega
  have here : events.array[((front.length : Nat) : Int).toNat]? = some event := by
    rw [split,Int.toNat_natCast]
    exact getElem?_middle
  have nodup := wellFormed.nodup
  rw [split] at nodup
  have different (other : Nat) (member : other ∈ front ++ behind) : other ≠ event := by
    rintro rfl
    exact (List.nodup_cons.mp ((List.perm_middle.nodup_iff).mp nodup)).1 member
  have retimed : (events.setTime event newTime).time event = newTime := by
    unfold TimeEvents.time setTime
    dsimp only
    rw [Function.update_self]
  have untimed (other : Nat) (member : other ∈ front ++ behind) : (events.setTime event newTime).time other = events.time other := by
    unfold TimeEvents.time setTime
    dsimp only
    rw [Function.update_of_ne (different other member)]
  have sorted := wellFormed.sorted
  rw [split] at sorted
  obtain ⟨sortedFront,sortedRest,across⟩ := List.pairwise_append.mp sorted
  obtain ⟨above,sortedBehind⟩ := List.pairwise_cons.mp sortedRest
  have below (other : Nat) (member : other ∈ front) : events.time other ≤ events.time event :=
    across other member event List.mem_cons_self
  have placed := @setTime_placed events event wellFormed.toPlaced newTime
  have split' : (events.setTime event newTime).array = front ++ event :: behind := split
  have bubbled : ∃ front' behind' position after, (events.setTime event newTime).bubbleCore front.length
      (if newTime < events.time event then .down else .up) = some (position,after) ∧ front' ++ behind' = front ++ behind ∧
      after.array = front' ++ event :: behind' ∧ Placed after ∧ Shuffled (events.setTime event newTime) after ∧
      (∀ other ∈ front', events.time other ≤ newTime) ∧ ∀ other ∈ behind', newTime ≤ events.time other := by
    by_cases less : newTime < events.time event
    · obtain ⟨front',moved,after,same,bubbled,order,placed',shuffled,later,earlier⟩ := bubble_down placed split'
      rw [if_pos less,bubbleCore_down split']
      refine ⟨front',moved ++ behind,_,after,bubbled,?_,order,placed',shuffled,?_,?_⟩
      · rw [same,List.append_assoc]
      · have sorted' : front'.Pairwise fun a b => events.time a ≤ events.time b :=
          (List.pairwise_append.mp (same ▸ sortedFront)).1
        refine all_le_of_last sorted' fun last is => ?_
        have member : last ∈ front := same ▸ List.mem_append_left _ (List.mem_of_getLast? is)
        have bound := earlier last is
        rw [retimed,untimed last (List.mem_append_left _ member)] at bound
        exact bound
      · intro other member
        rcases List.mem_append.mp member with old | old
        · have bound := later other old
          rw [retimed,untimed other (List.mem_append_left _ (same ▸ List.mem_append_right _ old))] at bound
          exact Int.le_of_lt bound
        · exact Int.le_trans (Int.le_of_lt less) (above other old)
    · obtain ⟨moved,behind',position',after,same,bubbled,order,placed',shuffled,earlier,later⟩ := bubble_up placed split'
      rw [if_neg less,bubbleCore_up split']
      refine ⟨front ++ moved,behind',_,after,bubbled,?_,order,placed',shuffled,?_,?_⟩
      · rw [same,List.append_assoc]
      · intro other member
        rcases List.mem_append.mp member with old | old
        · exact Int.le_trans (below other old) (Int.not_lt.mp less)
        · have bound := earlier other old
          rw [retimed,untimed other (List.mem_append_right _ (same ▸ List.mem_append_left _ old))] at bound
          exact Int.le_of_lt bound
      · have sorted' : behind'.Pairwise fun a b => events.time a ≤ events.time b :=
          (List.pairwise_append.mp (same ▸ sortedBehind)).2.1
        refine all_ge_of_first sorted' fun first is => ?_
        have member : first ∈ behind := same ▸ List.mem_append_right _ (List.mem_of_head? is)
        have bound := later first is
        rw [retimed,untimed first (List.mem_append_right _ member)] at bound
        exact bound
  obtain ⟨front',behind',position',after,bubbled,kept,order,placed',shuffled,earlier,later⟩ := bubbled
  unfold operate restart
  dsimp only
  rw [pointed,Option.bind_some,position,if_neg inside,here,Option.bind_some,if_pos known,bubbled,Option.map_some,Option.map_some]
  refine ⟨_,_,_,rfl,.restarted pointed split order kept earlier later ?_ (fun other other' => ?_) shuffled.ptrToPosition,placed'⟩
  · rw [shuffled.event event]
    unfold setTime
    dsimp only
    rw [Function.update_self]
  · rw [shuffled.event other]
    unfold setTime
    dsimp only
    rw [Function.update_of_ne other']

end Removing

end XivelyClient.EventDispatcher.TimeEvents
