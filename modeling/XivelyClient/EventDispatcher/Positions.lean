import XivelyClient.EventDispatcher.TimeEvent
import Mathlib.Data.List.Nodup
import Mathlib.Data.List.Induction
import Mathlib.Tactic.Common

/-! What the operations on time events do to the order of the vector and to the positions. -/
namespace XivelyClient.EventDispatcher.TimeEvents

/-- Every event is stored once and knows its place. -/
structure Placed (events : TimeEvents) : Prop where
  nodup : events.array.Nodup
  position : ∀ (index event : Nat), events.array[index]? = some event → (events.event event).position = index

/-- Only the order and the positions have changed. -/
structure Shuffled (before after : TimeEvents) : Prop where
  ptrToPosition : after.ptrToPosition = before.ptrToPosition
  capacity : after.capacity = before.capacity
  event : ∀ event, after.event event = {before.event event with position := (after.event event).position}

section Shuffling

variable {before between after events : TimeEvents} {xs ys : List Nat} {event first second : Nat}

theorem Shuffled.refl (events : TimeEvents) : Shuffled events events := ⟨rfl,rfl,fun _ => rfl⟩

theorem Shuffled.trans (one : Shuffled before between) (two : Shuffled between after) : Shuffled before after := by
  refine ⟨two.ptrToPosition.trans one.ptrToPosition,two.capacity.trans one.capacity,fun event => ?_⟩
  rw [two.event event,one.event event]

theorem Shuffled.time (shuffled : Shuffled before after) : after.time = before.time := by
  funext event
  unfold TimeEvents.time
  rw [shuffled.event event]

theorem Shuffled.timeEventHandle (shuffled : Shuffled before after) (event : Nat) :
    (after.event event).timeEventHandle = (before.event event).timeEventHandle := by
  rw [shuffled.event event]

theorem setPosition_shuffled (position : Int) : Shuffled events (events.setPosition event position) := by
  refine ⟨rfl,rfl,fun other => ?_⟩
  unfold setPosition
  dsimp only
  by_cases same : other = event
  · subst same
    rw [Function.update_self]
  · rw [Function.update_of_ne same]

theorem Placed.here (placed : Placed events) (array : events.array = xs ++ event :: ys) :
    (events.event event).position = xs.length := by
  apply placed.position
  rw [array,List.getElem?_append_right (Nat.le_refl _),Nat.sub_self]
  rfl

theorem getElem?_middle : (xs ++ event :: ys)[xs.length]? = some event := by
  rw [List.getElem?_append_right (Nat.le_refl _),Nat.sub_self]
  rfl

theorem getElem?_next : (xs ++ first :: second :: ys)[xs.length + 1]? = some second := by
  rw [List.getElem?_append_right (Nat.le_succ _),Nat.succ_sub (Nat.le_refl _),Nat.sub_self]
  rfl

theorem set_middle (other : Nat) : (xs ++ event :: ys).set xs.length other = xs ++ other :: ys := by
  rw [List.set_append_right _ _ (Nat.le_refl _),Nat.sub_self]
  rfl

theorem set_next (other : Nat) : (xs ++ first :: second :: ys).set (xs.length + 1) other = xs ++ first :: other :: ys := by
  rw [List.set_append_right _ _ (Nat.le_succ _),Nat.succ_sub (Nat.le_refl _),Nat.sub_self]
  rfl

theorem index_of_nodup {array : List Nat} {index other : Nat} (nodup : array.Nodup) (one : array[index]? = some event)
    (two : array[other]? = some event) : index = other :=
  (List.getElem?_inj (List.getElem?_eq_some_iff.mp one).1 nodup).mp (one.trans two.symm)

/-- Two neighbours know their places when they have been exchanged. -/
theorem placed_exchange (placed : Placed events) (array : events.array = xs ++ first :: second :: ys)
    (order : after.array = xs ++ second :: first :: ys) (left : (after.event second).position = xs.length)
    (right : (after.event first).position = xs.length + 1)
    (others : ∀ event, event ≠ first → event ≠ second → after.event event = events.event event) : Placed after := by
  have perm : (xs ++ second :: first :: ys).Perm (xs ++ first :: second :: ys) := (List.Perm.swap first second ys).append_left xs
  have nodup : (xs ++ first :: second :: ys).Nodup := array ▸ placed.nodup
  have nodup' : (xs ++ second :: first :: ys).Nodup := perm.nodup_iff.mpr nodup
  refine ⟨order ▸ nodup',fun index event at' => ?_⟩
  rw [order] at at'
  by_cases isSecond : event = second
  · subst isSecond
    have same := index_of_nodup nodup' getElem?_middle at'
    rw [left,same]
  · by_cases isFirst : event = first
    · subst isFirst
      have same := index_of_nodup nodup' getElem?_next at'
      rw [right,← same]
      rfl
    · rw [others event isFirst isSecond]
      apply placed.position
      rw [array]
      rcases Nat.lt_trichotomy index xs.length with before | here | behind
      · rw [List.getElem?_append_left before] at at' ⊢
        exact at'
      · subst here
        exact (isSecond (Option.some.inj (at'.symm.trans getElem?_middle))).elim
      · obtain ⟨more,rfl⟩ := Nat.exists_eq_add_of_lt behind
        rw [List.getElem?_append_right (by omega)] at at' ⊢
        have shift : xs.length + more + 1 - xs.length = more + 1 := by omega
        rw [shift] at at' ⊢
        cases more with
        | zero => exact (isFirst (Option.some.inj at').symm).elim
        | succ more => exact at'

theorem swapTimeEvents_eq {lhs rhs : Nat} (one : events.array[lhs]? = some first) (two : events.array[rhs]? = some second) :
    events.swapTimeEvents lhs rhs = some (({events with array := (events.array.set lhs second).set rhs first}.setPosition first
      rhs).setPosition second lhs) := by
  obtain ⟨small,_⟩ := List.getElem?_eq_some_iff.mp one
  obtain ⟨small',_⟩ := List.getElem?_eq_some_iff.mp two
  have inside : (lhs : Int) < events.elemNo ∧ (rhs : Int) < events.elemNo ∧ 0 ≤ (lhs : Int) ∧ 0 ≤ (rhs : Int) := by
    unfold elemNo
    omega
  unfold swapTimeEvents
  rw [if_pos inside,Int.toNat_natCast,Int.toNat_natCast,one,two]

theorem exchange_shuffled (array : List Nat) (lhs rhs : Int) :
    Shuffled events (({events with array := array}.setPosition first lhs).setPosition second rhs) := by
  have listed : Shuffled events {events with array := array} := ⟨rfl,rfl,fun _ => rfl⟩
  exact (listed.trans (setPosition_shuffled lhs)).trans (setPosition_shuffled rhs)

theorem exchange_others {event : Nat} (array : List Nat) (lhs rhs : Int) (isFirst : event ≠ first) (isSecond : event ≠ second) :
    (({events with array := array}.setPosition first lhs).setPosition second rhs).event event = events.event event := by
  unfold setPosition
  dsimp only
  rw [Function.update_of_ne isSecond,Function.update_of_ne isFirst]

theorem exchange_second (array : List Nat) (lhs rhs : Int) :
    ((({events with array := array}.setPosition first lhs).setPosition second rhs).event second).position = rhs := by
  unfold setPosition
  dsimp only
  rw [Function.update_self]

theorem exchange_first (array : List Nat) (lhs rhs : Int) (distinct : first ≠ second) :
    ((({events with array := array}.setPosition first lhs).setPosition second rhs).event first).position = lhs := by
  unfold setPosition
  dsimp only
  rw [Function.update_of_ne distinct,Function.update_self]

theorem Placed.distinct (placed : Placed events) (array : events.array = xs ++ first :: second :: ys) : first ≠ second := by
  have nodup := (List.nodup_append.mp (array ▸ placed.nodup)).2.1
  exact fun same => (List.nodup_cons.mp nodup).1 (same ▸ List.mem_cons_self)

/-- Neighbours are exchanged, whichever of them is named first. -/
theorem swapTimeEvents_next (placed : Placed events) (array : events.array = xs ++ first :: second :: ys) :
    ∃ after, events.swapTimeEvents xs.length (xs.length + 1 : Nat) = some after ∧ after.array = xs ++ second :: first :: ys ∧
      Placed after ∧ Shuffled events after := by
  have distinct := placed.distinct array
  have order : (events.array.set xs.length second).set (xs.length + 1) first = xs ++ second :: first :: ys := by
    rw [array,set_middle,set_next]
  refine ⟨_,swapTimeEvents_eq (array ▸ getElem?_middle) (array ▸ getElem?_next),order,?_,exchange_shuffled _ _ _⟩
  exact placed_exchange placed array order (exchange_second _ _ _) (exchange_first _ _ _ distinct)
    fun event => exchange_others _ _ _

theorem swapTimeEvents_previous (placed : Placed events) (array : events.array = xs ++ first :: second :: ys) :
    ∃ after, events.swapTimeEvents (xs.length + 1 : Nat) xs.length = some after ∧ after.array = xs ++ second :: first :: ys ∧
      Placed after ∧ Shuffled events after := by
  have distinct := placed.distinct array
  have order : (events.array.set (xs.length + 1) first).set xs.length second = xs ++ second :: first :: ys := by
    rw [array,set_next,set_middle]
  refine ⟨_,swapTimeEvents_eq (array ▸ getElem?_next) (array ▸ getElem?_middle),order,?_,exchange_shuffled _ _ _⟩
  exact placed_exchange placed array order (exchange_first _ _ _ distinct.symm) (exchange_second _ _ _)
    fun event isFirst isSecond => exchange_others _ _ _ isSecond isFirst

theorem bubble_zero {dir : Direction} {index : Nat} (here : events.array[index]? = some event) :
    bubble dir 0 index events = some ((events.event event).position,events) := by
  change (events.array[index]?).map _ = _
  rw [here]
  rfl

theorem bubble_down_succ {steps index : Nat} (one : events.array[index]? = some first)
    (two : events.array[index + 1]? = some second) : bubble .down (steps + 1) (index + 1) events =
      if events.misplaced .down second first then
        (events.swapTimeEvents (events.event first).position (events.event second).position).bind (bubble .down steps index)
      else some ((events.event second).position,events) := by
  conv_lhs => unfold bubble
  dsimp only
  rewrite [Nat.add_sub_cancel,one,two]
  rfl

theorem bubble_up_succ {steps index : Nat} (one : events.array[index]? = some first)
    (two : events.array[index + 1]? = some second) : bubble .up (steps + 1) index events =
      if events.misplaced .up first second then
        (events.swapTimeEvents (events.event second).position (events.event first).position).bind (bubble .up steps (index + 1))
      else some ((events.event first).position,events) := by
  conv_lhs => unfold bubble
  dsimp only
  rewrite [one,two]
  rfl

/-- An event that bubbles down stops behind the last one that is not later. -/
theorem bubble_down (placed : Placed events) (array : events.array = xs ++ event :: ys) :
    ∃ front behind after, xs = front ++ behind ∧
      bubble .down xs.length xs.length events = some ((front.length : Int),after) ∧
      after.array = front ++ event :: (behind ++ ys) ∧ Placed after ∧ Shuffled events after ∧
      (∀ other ∈ behind, events.time event < events.time other) ∧
      ∀ last, front.getLast? = some last → events.time last ≤ events.time event := by
  induction xs using List.reverseRecOn generalizing events ys with
  | nil =>
    refine ⟨[],[],events,rfl,?_,array,placed,.refl events,fun _ none' => (List.not_mem_nil none').elim,
      fun _ none' => (Option.some_ne_none _ none'.symm).elim⟩
    have here : events.array[0]? = some event := by rw [array]; rfl
    rw [List.length_nil,bubble_zero here,placed.here array]
    rfl
  | append_singleton xs previous ih =>
    have array' : events.array = xs ++ previous :: event :: ys := array.trans (List.append_assoc _ _ _)
    have one : events.array[xs.length]? = some previous := array' ▸ getElem?_middle
    rw [List.length_append,List.length_singleton,bubble_down_succ one (array' ▸ getElem?_next)]
    have right : (events.event event).position = (xs.length + 1 : Nat) := by
      rw [placed.here array,List.length_append]
      rfl
    by_cases misplaced : events.time event < events.time previous
    · obtain ⟨between,swapped,order,placed',shuffled⟩ := swapTimeEvents_next placed array'
      obtain ⟨front,behind,after,same,bubbled,order',placed'',shuffled',later,earlier⟩ := ih placed' order
      refine ⟨front,behind ++ [previous],after,?_,?_,?_,placed'',shuffled.trans shuffled',?_,?_⟩
      · rw [same,List.append_assoc]
      · have moves : events.misplaced .down event previous = true := decide_eq_true misplaced
        rw [if_pos moves,placed.here array',right,swapped]
        exact bubbled
      · rw [order',List.append_assoc]
        rfl
      · rw [shuffled.time] at later
        intro other member
        rcases List.mem_append.mp member with old | new
        · exact later other old
        · cases List.mem_singleton.mp new
          exact misplaced
      · rw [shuffled.time] at earlier
        exact earlier
    · refine ⟨xs ++ [previous],[],events,(List.append_nil _).symm,?_,array,placed,.refl events,
        fun _ none' => (List.not_mem_nil none').elim,fun last is => ?_⟩
      · have stays : ¬events.misplaced .down event previous = true := fun moves => misplaced (of_decide_eq_true moves)
        rw [if_neg stays,right,List.length_append]
        rfl
      · rw [List.getLast?_append] at is
        cases is
        exact Int.not_lt.mp misplaced

/-- An event that bubbles up stops before the first one that is not earlier. -/
theorem bubble_up (placed : Placed events) (array : events.array = xs ++ event :: ys) :
    ∃ front behind position after, ys = front ++ behind ∧ bubble .up ys.length xs.length events = some (position,after) ∧
      after.array = xs ++ front ++ event :: behind ∧ Placed after ∧ Shuffled events after ∧
      (∀ other ∈ front, events.time other < events.time event) ∧
      ∀ first, behind.head? = some first → events.time event ≤ events.time first := by
  induction ys generalizing events xs with
  | nil =>
    refine ⟨[],[],(events.event event).position,events,rfl,?_,array.trans (by rw [List.append_nil]),placed,.refl events,
      fun _ none' => (List.not_mem_nil none').elim,fun _ none' => (Option.some_ne_none _ none'.symm).elim⟩
    exact bubble_zero (array ▸ getElem?_middle)
  | cons next ys ih =>
    have one : events.array[xs.length]? = some event := array ▸ getElem?_middle
    rw [List.length_cons,bubble_up_succ one (array ▸ getElem?_next)]
    have right : (events.event next).position = (xs.length + 1 : Nat) :=
      placed.position _ next (array ▸ getElem?_next)
    by_cases misplaced : events.time event > events.time next
    · obtain ⟨between,swapped,order,placed',shuffled⟩ := swapTimeEvents_previous placed array
      have order' : between.array = (xs ++ [next]) ++ event :: ys := order.trans (List.append_assoc xs [next] (event :: ys)).symm
      obtain ⟨front,behind,position,after,same,bubbled,order'',placed'',shuffled',earlier,later⟩ := ih placed' order'
      refine ⟨next :: front,behind,position,after,?_,?_,?_,placed'',shuffled.trans shuffled',?_,?_⟩
      · rw [same]
        rfl
      · have moves : events.misplaced .up event next = true := decide_eq_true misplaced
        rw [List.length_append] at bubbled
        rw [if_pos moves,placed.here array,right,swapped]
        exact bubbled
      · rw [order'',List.append_assoc xs]
        rfl
      · rw [shuffled.time] at earlier
        intro other member
        rcases List.mem_cons.mp member with same | old
        · rw [same]
          exact misplaced
        · exact earlier other old
      · rw [shuffled.time] at later
        exact later
    · refine ⟨[],next :: ys,(events.event event).position,events,rfl,?_,array.trans (by rw [List.append_nil]),placed,.refl events,
        fun _ none' => (List.not_mem_nil none').elim,fun first is => ?_⟩
      · have stays : ¬events.misplaced .up event next = true := fun moves => misplaced (of_decide_eq_true moves)
        rw [if_neg stays]
      · cases is
        exact Int.not_lt.mp misplaced

theorem moveSteps_end (placed : Placed events) (array : events.array = xs ++ event :: ys) :
    ∃ after, moveSteps ys.length xs.length events = some after ∧ after.array = xs ++ ys ++ [event] ∧ Placed after ∧
      Shuffled events after := by
  induction ys generalizing events xs with
  | nil => exact ⟨events,rfl,array.trans (by rw [List.append_nil]),placed,.refl events⟩
  | cons next ys ih =>
    obtain ⟨between,swapped,order,placed',shuffled⟩ := swapTimeEvents_next placed array
    have order' : between.array = (xs ++ [next]) ++ event :: ys := order.trans (List.append_assoc xs [next] (event :: ys)).symm
    obtain ⟨after,moved,order'',placed'',shuffled'⟩ := ih placed' order'
    refine ⟨after,?_,?_,placed'',shuffled.trans shuffled'⟩
    · rw [List.length_append] at moved
      rw [List.length_cons]
      unfold moveSteps
      rw [swapped]
      exact moved
    · rw [order'',List.append_assoc xs]
      rfl

theorem elemNo_eq (array : events.array = xs ++ event :: ys) : events.elemNo = xs.length + ys.length + 1 := by
  unfold elemNo
  rw [array,List.length_append,List.length_cons]
  omega

theorem moveToTheEnd_end (placed : Placed events) (array : events.array = xs ++ event :: ys) :
    ∃ after, events.moveToTheEnd xs.length = some after ∧ after.array = xs ++ ys ++ [event] ∧ Placed after ∧
      Shuffled events after := by
  have long := elemNo_eq array
  have left : events.array.length - 1 - xs.length = ys.length := by
    rw [array,List.length_append,List.length_cons]
    omega
  unfold moveToTheEnd
  rw [if_pos (by omega),Int.toNat_natCast,left]
  exact moveSteps_end placed array

theorem bubbleCore_down (array : events.array = xs ++ event :: ys) :
    events.bubbleCore xs.length .down = bubble .down xs.length xs.length events := by
  have long := elemNo_eq array
  unfold bubbleCore
  rw [if_pos (by omega),Int.toNat_natCast]

theorem bubbleCore_up (array : events.array = xs ++ event :: ys) :
    events.bubbleCore xs.length .up = bubble .up ys.length xs.length events := by
  have long := elemNo_eq array
  have left : events.array.length - 1 - xs.length = ys.length := by
    rw [array,List.length_append,List.length_cons]
    omega
  unfold bubbleCore
  dsimp only
  rw [if_pos (by omega),Int.toNat_natCast,left]

end Shuffling

end XivelyClient.EventDispatcher.TimeEvents
