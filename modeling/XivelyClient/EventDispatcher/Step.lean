import XivelyClient.EventDispatcher.Dispatcher
import Mathlib.Data.List.Perm.Basic

/-! What a step of the dispatcher runs, and in which order. -/
namespace XivelyClient.EventDispatcher

namespace TimeEvents

/-- The event that an operation puts in. -/
def gained : Operation → XiState → List Nat
  | .add event _ _ _ _,state => if state = .ok then [event] else []
  | _,_ => []

/-- The time that an operation gives to an event. -/
def Sets : Operation → Int → Prop
  | .add _ _ time _ _,set | .restart _ time,set => set = time
  | _,_ => False

section Moves

variable {events after : TimeEvents} {operation : Operation} {state : XiState} {removed : Option Nat}

/-- No event is lost. -/
theorem Operated.perm (operated : Operated events operation state removed after) :
    (gained operation state ++ events.array).Perm (removed.toList ++ after.array) := by
  cases operated with
  | @added event _ _ _ _ front behind _ split array =>
    rw [split,array]
    change (event :: (front ++ behind)).Perm (front ++ event :: behind)
    exact List.perm_middle.symm
  | full => exact .refl _
  | empty array => exact .refl _
  | top split array =>
    rw [split,array]
    exact .refl _
  | @restarted _ event _ front front' behind behind' _ pointed split array kept =>
    rw [split,array]
    change (front ++ event :: behind).Perm (front' ++ event :: behind')
    refine List.perm_middle.trans (.trans ?_ List.perm_middle.symm)
    rw [kept]
  | cancelled pointed split array =>
    rw [split,array]
    exact List.perm_middle

theorem Operated.times (operated : Operated events operation state removed after) (wellFormed : WellFormed events)
    (allowed : Allowed events operation) {other : Nat} (member : other ∈ after.array) :
    other ∈ events.array ∧ after.time other = events.time other ∨ Sets operation (after.time other) := by
  cases operated with
  | @added event eventHandle time handle alloc front behind _ split array earlier later made others =>
    by_cases is : other = event
    · subst is
      exact .inr (congrArg TimeEvent.timeOfExecution made)
    · refine .inl ⟨?_,others.time is⟩
      rw [split,mem_middle is,← array]
      exact member
  | full => exact .inl ⟨member,make_others.time fun is => allowed.1 (is ▸ member)⟩
  | empty array => exact .inl ⟨member,rfl⟩
  | @top event rest _ split array others =>
    have gone : event ∉ rest := @not_mem_of_split events wellFormed [] rest event split
    rw [array] at member
    exact .inl ⟨split ▸ List.mem_cons_of_mem _ member,others.time fun is => gone (is ▸ member)⟩
  | @restarted handle event newTime front front' behind behind' _ pointed split array kept earlier later made others =>
    by_cases is : other = event
    · subst is
      exact .inr (congrArg TimeEvent.timeOfExecution made)
    · refine .inl ⟨?_,others.time is⟩
      rw [split,← mem_middle is,← kept,mem_middle is,← array]
      exact member
  | @cancelled handle event front behind _ pointed split array others =>
    have gone := not_mem_of_split wellFormed split
    rw [array] at member
    have is : other ≠ event := fun is => gone (is ▸ member)
    exact .inl ⟨split ▸ (mem_middle is).mp member,others.time is⟩

/-- An operation with a result was one that the callers may ask for. -/
theorem allowed_of_operate (same : events.operate operation = some (state,removed,after))
    (new : ∀ event eventHandle time handle alloc, operation = .add event eventHandle time handle alloc → event ∉ events.array) :
    Allowed events operation := by
  cases operation with
  | add event eventHandle time handle alloc =>
    refine ⟨new event eventHandle time handle alloc rfl,fun set is => ?_⟩
    subst is
    unfold operate add at same
    dsimp only at same
    split at same
    · rename_i unset
      exact Option.isNone_iff_eq_none.mp unset
    · exact absurd same.symm (Option.some_ne_none _)
  | getTop => trivial
  | restart handle newTime =>
    intro unset
    unfold operate restart at same
    dsimp only at same
    rw [unset] at same
    exact absurd same.symm (Option.some_ne_none _)
  | cancel handle =>
    intro unset
    unfold operate cancel at same
    dsimp only at same
    rw [unset] at same
    exact absurd same.symm (Option.some_ne_none _)

end Moves

end TimeEvents

/-- How far ahead of the clock a call sets the time of an event. -/
def Call.delay : Call → Option Int
  | .executeIn _ timeDiff _ _ _ => some timeDiff
  | .restart _ newTime => some newTime
  | _ => none

namespace Dispatcher

open TimeEvents

/-- What was there at the start of a step or came since has left, or is still there. -/
structure Accounts (first dispatcher : Dispatcher) : Prop where
  wellFormed : WellFormed dispatcher.timeEvents
  fresh : ∀ event ∈ first.timeEvents.array ++ added dispatcher.log, event < dispatcher.allocated
  distinct : (first.timeEvents.array ++ added dispatcher.log).Nodup
  events : (first.timeEvents.array ++ added dispatcher.log).Perm
    ((ran dispatcher.log).map Prod.fst ++ cancelled dispatcher.log ++ dispatcher.timeEvents.array)
  elements : ∀ element ∈ (first.callQueue ++ enqueued dispatcher.log).map Prod.fst, element < dispatcher.allocated
  once : ((first.callQueue ++ enqueued dispatcher.log).map Prod.fst).Nodup
  calls : first.callQueue ++ enqueued dispatcher.log = called dispatcher.log ++ dispatcher.callQueue

/-- Events and elements were allocated, each by itself. -/
structure Sound (dispatcher : Dispatcher) : Prop where
  wellFormed : WellFormed dispatcher.timeEvents
  fresh : ∀ event ∈ dispatcher.timeEvents.array, event < dispatcher.allocated
  elements : ∀ element ∈ dispatcher.callQueue.map Prod.fst, element < dispatcher.allocated
  once : (dispatcher.callQueue.map Prod.fst).Nodup

section Accounting

variable {first dispatcher after : Dispatcher} {operation : Operation} {state : XiState} {removed : Option Nat} {events : TimeEvents}

theorem added_append (log more : List Happening) : added (log ++ more) = added log ++ added more := List.filterMap_append
theorem cancelled_append (log more : List Happening) : cancelled (log ++ more) = cancelled log ++ cancelled more := List.filterMap_append
theorem ran_append (log more : List Happening) : ran (log ++ more) = ran log ++ ran more := List.filterMap_append
theorem enqueued_append (log more : List Happening) : enqueued (log ++ more) = enqueued log ++ enqueued more := List.filterMap_append
theorem called_append (log more : List Happening) : called (log ++ more) = called log ++ called more := List.filterMap_append

theorem Sound.start (sound : Sound dispatcher) (newStep : Int) : Accounts dispatcher (dispatcher.start newStep) := by
  refine ⟨sound.wellFormed,?_,?_,?_,?_,?_,?_⟩
  · exact fun event member => sound.fresh event (List.append_nil dispatcher.timeEvents.array ▸ member)
  · exact (List.append_nil _).symm ▸ sound.wellFormed.nodup
  · exact (List.append_nil _).symm ▸ List.Perm.refl _
  · exact fun element member => sound.elements element (List.append_nil dispatcher.callQueue ▸ member)
  · exact (List.append_nil dispatcher.callQueue).symm ▸ sound.once
  · exact List.append_nil _

theorem Accounts.sound (accounts : Accounts first dispatcher) : Sound dispatcher := by
  have elements := accounts.elements
  have once := accounts.once
  rw [accounts.calls,List.map_append] at elements once
  refine ⟨accounts.wellFormed,fun event member => ?_,fun element member => ?_,?_⟩
  · exact accounts.fresh event (accounts.events.mem_iff.mpr (List.mem_append_right _ member))
  · exact elements element (List.mem_append_right _ member)
  · exact (List.nodup_append.mp once).2.1

/-- An operation on the time events keeps the accounts, when all that it does is written down. -/
theorem Accounts.operated {happened : List Happening} {allocated : Nat} (accounts : Accounts first dispatcher)
    (operated : Operated dispatcher.timeEvents operation state removed events) (wellFormed : WellFormed events)
    (more : dispatcher.allocated ≤ allocated)
    (fresh : ∀ event ∈ gained operation state, dispatcher.allocated ≤ event ∧ event < allocated)
    (single : (gained operation state).Nodup) (puts : added happened = gained operation state)
    (gives : (ran happened).map Prod.fst ++ cancelled happened = removed.toList)
    (asks : enqueued happened = []) (calls : called happened = []) :
    Accounts first {dispatcher with timeEvents := events,allocated := allocated,log := dispatcher.log ++ happened} := by
  have queue : first.callQueue ++ enqueued (dispatcher.log ++ happened) = first.callQueue ++ enqueued dispatcher.log := by
    rw [enqueued_append,asks,List.append_nil]
  have stored : first.timeEvents.array ++ added (dispatcher.log ++ happened) =
      first.timeEvents.array ++ added dispatcher.log ++ gained operation state := by
    rw [added_append,puts,List.append_assoc]
  refine ⟨wellFormed,?_,?_,?_,?_,?_,?_⟩ <;> dsimp only
  · rw [stored]
    intro event member
    rcases List.mem_append.mp member with old | new
    · exact (accounts.fresh event old).trans_le more
    · exact (fresh event new).2
  · rw [stored]
    refine List.nodup_append.mpr ⟨accounts.distinct,single,fun old member new member' same => ?_⟩
    have bound := accounts.fresh old member
    have bound' := (fresh new member').1
    omega
  · rw [stored]
    have known := List.perm_iff_count.mp accounts.events
    have moved := List.perm_iff_count.mp operated.perm
    refine List.perm_iff_count.mpr fun event => ?_
    have known := known event
    have moved := moved event
    rw [← gives] at moved
    simp only [ran_append,cancelled_append,List.map_append,List.count_append] at known moved ⊢
    omega
  · rw [queue]
    exact fun element member => (accounts.elements element member).trans_le more
  · rw [queue]
    exact accounts.once
  · rw [queue,called_append,calls,List.append_nil]
    exact accounts.calls

theorem operate_cases {happened : XiState → Option Nat → List Happening} (wellFormed : WellFormed dispatcher.timeEvents)
    (new : ∀ event eventHandle time handle alloc, operation = .add event eventHandle time handle alloc →
      event ∉ dispatcher.timeEvents.array)
    (same : dispatcher.operate operation happened = some after) : ∃ state removed events,
    Allowed dispatcher.timeEvents operation ∧ Operated dispatcher.timeEvents operation state removed events ∧ WellFormed events ∧
      after = {dispatcher with timeEvents := events,log := dispatcher.log ++ happened state removed} := by
  obtain ⟨⟨state,removed,events⟩,done,same⟩ := Option.map_eq_some_iff.mp same
  have allowed := allowed_of_operate done new
  obtain ⟨state',removed',events',done',operated,wellFormed',_⟩ := operate_wellFormed wellFormed allowed
  cases done.symm.trans done'
  exact ⟨state,removed,events,allowed,operated,wellFormed',same.symm⟩

/-- What a call may have done. -/
inductive Called (dispatcher : Dispatcher) : Call → Dispatcher → Prop
  | operated {call : Call} {state : XiState} {removed : Option Nat} {events : TimeEvents} {happened : List Happening}
    {allocated : Nat} (operation : Operation) (allowed : Allowed dispatcher.timeEvents operation)
    (operated : Operated dispatcher.timeEvents operation state removed events) (wellFormed : WellFormed events)
    (sets : ∀ time, Sets operation time → ∃ delay, call.delay = some delay ∧ time = dispatcher.currentStep + delay)
    (more : dispatcher.allocated ≤ allocated)
    (fresh : ∀ event ∈ gained operation state, dispatcher.allocated ≤ event ∧ event < allocated)
    (single : (gained operation state).Nodup) (puts : added happened = gained operation state) (runs : ran happened = [])
    (gives : cancelled happened = removed.toList) (asks : enqueued happened = []) (calls : called happened = []) :
    Called dispatcher call {dispatcher with timeEvents := events,allocated := allocated,log := dispatcher.log ++ happened}
  | enqueued (handle : Nat) : Called dispatcher (.execute handle true) (dispatcher.execute handle true)
  | other {call : Call} (handle : Option Nat) : Called dispatcher call (dispatcher.continueWhenEmpty handle)

theorem call_cases {call : Call} (sound : Sound dispatcher) (same : dispatcher.call call = some after) :
    Called dispatcher call after := by
  cases call with
  | executeIn handle timeDiff ret alloc allocVector =>
    have same : dispatcher.executeIn handle timeDiff ret alloc allocVector = some after := same
    unfold executeIn at same
    split at same
    · have new : dispatcher.allocated ∉ dispatcher.timeEvents.array := fun member => Nat.lt_irrefl _ (sound.fresh _ member)
      obtain ⟨state,removed,events,allowed,operated,wellFormed,is⟩ := @operate_cases
        {dispatcher with allocated := dispatcher.allocated + 1} _ _ _ sound.wellFormed
        (fun event _ _ _ _ is member => by cases is; exact new member) same
      have got : gained (.add dispatcher.allocated handle (dispatcher.currentStep + timeDiff) ret allocVector) state =
          if state = .ok then [dispatcher.allocated] else [] := rfl
      have kept : removed = none := by cases operated <;> rfl
      rw [is]
      refine .operated _ allowed operated wellFormed ?_ (Nat.le_succ _) ?_ ?_ ?_ ?_ ?_ ?_ ?_
      · exact fun time set => ⟨timeDiff,rfl,set⟩
      · intro event member
        rw [got] at member
        split at member
        · cases List.mem_singleton.mp member
          exact ⟨Nat.le_refl _,Nat.lt_succ_self _⟩
        · exact (List.not_mem_nil member).elim
      · rw [got]
        split
        · exact List.nodup_singleton _
        · exact List.nodup_nil
      · rw [got]
        split <;> rfl
      · split <;> rfl
      · rw [kept]
        split <;> rfl
      · split <;> rfl
      · split <;> rfl
    · cases same
      exact .other dispatcher.onEmpty
  | cancel handle =>
    change dispatcher.cancel handle = some after at same
    unfold Dispatcher.cancel at same
    obtain ⟨state,removed,events,allowed,operated,wellFormed,is⟩ := operate_cases sound.wellFormed (fun _ _ _ _ _ is => by cases is) same
    rw [is]
    refine .operated _ allowed operated wellFormed (fun time set => set.elim) (Nat.le_refl _)
      (fun event member => (List.not_mem_nil member).elim) List.nodup_nil ?_ ?_ ?_ ?_ ?_ <;> cases removed <;> rfl
  | restart handle newTime =>
    change dispatcher.restart handle newTime = some after at same
    unfold Dispatcher.restart at same
    obtain ⟨state,removed,events,allowed,operated,wellFormed,is⟩ := operate_cases sound.wellFormed (fun _ _ _ _ _ is => by cases is) same
    have kept : removed = none := by cases operated; rfl
    rw [is]
    refine .operated _ allowed operated wellFormed (fun time set => ⟨newTime,rfl,set⟩) (Nat.le_refl _)
      (fun event member => (List.not_mem_nil member).elim) List.nodup_nil rfl rfl ?_ rfl rfl
    rw [kept]
    rfl
  | execute handle alloc =>
    cases same
    cases alloc with
    | true => exact .enqueued handle
    | false => exact .other dispatcher.onEmpty
  | continueWhenEmpty handle =>
    cases same
    exact .other handle

/-- Every call keeps the accounts. -/
theorem Accounts.called {call : Call} (accounts : Accounts first dispatcher) (called : Called dispatcher call after) :
    Accounts first after := by
  cases called with
  | operated operation allowed operated wellFormed sets more fresh single puts runs gives asks calls =>
    refine accounts.operated operated wellFormed more fresh single puts ?_ asks calls
    rw [runs,gives]
    rfl
  | enqueued handle =>
    have queue : first.callQueue ++ Dispatcher.enqueued (dispatcher.log ++ [.enqueued dispatcher.allocated handle]) =
        first.callQueue ++ Dispatcher.enqueued dispatcher.log ++ [(dispatcher.allocated,handle)] := by
      rw [enqueued_append,List.append_assoc]
      rfl
    unfold execute
    rw [if_pos rfl]
    refine ⟨accounts.wellFormed,?_,?_,?_,?_,?_,?_⟩ <;> dsimp only
    · rw [added_append,show added [.enqueued dispatcher.allocated handle] = [] from rfl,List.append_nil]
      exact fun event member => Nat.lt_succ_of_lt (accounts.fresh event member)
    · rw [added_append,show added [.enqueued dispatcher.allocated handle] = [] from rfl,List.append_nil]
      exact accounts.distinct
    · rw [added_append,ran_append,cancelled_append,show added [.enqueued dispatcher.allocated handle] = [] from rfl,
        show ran [.enqueued dispatcher.allocated handle] = [] from rfl,
        show cancelled [.enqueued dispatcher.allocated handle] = [] from rfl,List.append_nil,List.append_nil,List.append_nil]
      exact accounts.events
    · rw [queue,List.map_append]
      intro element member
      rcases List.mem_append.mp member with old | new
      · exact Nat.lt_succ_of_lt (accounts.elements element old)
      · cases List.mem_singleton.mp new
        exact Nat.lt_succ_self _
    · rw [queue,List.map_append]
      refine List.nodup_append.mpr ⟨accounts.once,List.nodup_singleton _,fun old member new member' same => ?_⟩
      cases List.mem_singleton.mp member'
      exact Nat.lt_irrefl _ (same ▸ accounts.elements old member)
    · rw [queue,called_append,show Dispatcher.called [.enqueued dispatcher.allocated handle] = [] from rfl,List.append_nil,
        accounts.calls,List.append_assoc]
  | other handle =>
    exact ⟨accounts.wellFormed,accounts.fresh,accounts.distinct,accounts.events,accounts.elements,accounts.once,accounts.calls⟩

/-- A call runs nothing and leaves the clock. -/
theorem Called.frame {call : Call} (called : Called dispatcher call after) : ran after.log = ran dispatcher.log ∧
    Dispatcher.called after.log = Dispatcher.called dispatcher.log ∧ dispatcher.log <+: after.log ∧
    after.currentStep = dispatcher.currentStep := by
  cases called with
  | operated operation allowed operated wellFormed sets more fresh single puts runs gives asks calls =>
    refine ⟨?_,?_,List.prefix_append _ _,rfl⟩ <;> dsimp only
    · rw [ran_append,runs,List.append_nil]
    · rw [called_append,calls,List.append_nil]
  | enqueued handle =>
    unfold execute
    rw [if_pos rfl]
    refine ⟨?_,?_,List.prefix_append _ _,rfl⟩ <;> dsimp only
    · exact (ran_append _ _).trans (List.append_nil _)
    · exact (called_append _ _).trans (List.append_nil _)
  | other handle => exact ⟨rfl,rfl,List.prefix_refl _,rfl⟩

/-- What each call of a handler keeps, the handler keeps. -/
theorem executeHandle_invariant {I : Dispatcher → Prop} {calls : List Call} (sound : ∀ dispatcher, I dispatcher → Sound dispatcher)
    (keep : ∀ dispatcher call after, I dispatcher → call ∈ calls → Called dispatcher call after → I after) (start : I dispatcher)
    (same : executeHandle calls dispatcher = some after) : I after := by
  unfold executeHandle at same
  induction calls generalizing dispatcher with
  | nil =>
    cases same
    exact start
  | cons call calls ih =>
    rw [List.foldlM_cons] at same
    obtain ⟨between,called,same⟩ := Option.bind_eq_some_iff.mp same
    exact ih (fun dispatcher call after start member => keep dispatcher call after start (List.mem_cons_of_mem _ member))
      (keep dispatcher call between start List.mem_cons_self (call_cases (sound dispatcher start) called)) same

end Accounting

section Timed

variable {first dispatcher after : Dispatcher} {newStep : Int} {behaviours : List (List Call)}

/-- No handler sets a time that is over. -/
def Later (behaviours : List (List Call)) : Prop := ∀ calls ∈ behaviours, ∀ call ∈ calls, ∀ delay, call.delay = some delay → 0 ≤ delay

/-- The times of what ran go up to those of what is left, as long as no handler sets a time that is over. -/
structure Timed (first : Dispatcher) (newStep : Int) (later : Prop) (dispatcher : Dispatcher) : Prop extends
    Accounts first dispatcher where
  clock : dispatcher.currentStep = newStep
  due : ∀ run ∈ ran dispatcher.log, run.2 ≤ newStep
  uncalled : called dispatcher.log = []
  ordered : later → (ran dispatcher.log).Pairwise (fun run next => run.2 ≤ next.2) ∧
    ∀ run ∈ ran dispatcher.log, ∀ event ∈ dispatcher.timeEvents.array, run.2 ≤ dispatcher.timeEvents.time event

theorem Timed.called {later : Prop} {call : Call} (timed : Timed first newStep later dispatcher)
    (ahead : later → ∀ delay, call.delay = some delay → 0 ≤ delay) (called : Called dispatcher call after) :
    Timed first newStep later after := by
  obtain ⟨ran',called',_,clock⟩ := called.frame
  refine ⟨timed.toAccounts.called called,clock.trans timed.clock,?_,called'.trans timed.uncalled,fun is => ?_⟩
  · rw [ran']
    exact timed.due
  · obtain ⟨sorted,below⟩ := timed.ordered is
    rw [ran']
    refine ⟨sorted,fun run member event stored => ?_⟩
    cases called with
    | operated operation allowed operated wellFormed sets =>
      rcases operated.times timed.wellFormed allowed stored with ⟨old,same⟩ | set
      · dsimp only
        rw [same]
        exact below run member event old
      · obtain ⟨delay,known,time⟩ := sets _ set
        have bound := timed.due run member
        have positive := ahead is delay known
        dsimp only
        rw [time,timed.clock]
        omega
    | enqueued handle => exact below run member event stored
    | other handle => exact below run member event stored

theorem due_eq_none : dispatcher.due = none ↔
    ∀ event, dispatcher.timeEvents.array.head? = some event → dispatcher.currentStep < dispatcher.timeEvents.time event := by
  unfold due peekTop
  rw [Option.filter_eq_none_iff]
  simp

theorem none_due (sorted : WellFormed dispatcher.timeEvents) (none' : dispatcher.due = none) :
    ∀ event ∈ dispatcher.timeEvents.array, dispatcher.currentStep < dispatcher.timeEvents.time event := by
  intro event member
  have first := due_eq_none.mp none'
  cases array : dispatcher.timeEvents.array with
  | nil => exact (List.not_mem_nil (array ▸ member)).elim
  | cons top rest =>
    have ahead := first top (by rw [array]; rfl)
    have order := sorted.sorted
    rw [array] at order member
    rcases List.mem_cons.mp member with is | behind
    · rw [is]
      exact ahead
    · exact Int.lt_of_lt_of_le ahead ((List.pairwise_cons.mp order).1 event behind)

/-- The first event runs when its time has come. -/
theorem Timed.getTop {later : Prop} (timed : Timed first newStep later dispatcher) (some' : dispatcher.due ≠ none)
    (same : dispatcher.getTop = some after) : Timed first newStep later after := by
  unfold Dispatcher.getTop at same
  obtain ⟨state,removed,events,_,operated,wellFormed,is⟩ := operate_cases timed.wellFormed (fun _ _ _ _ _ is => by cases is) same
  subst is
  cases operated with
  | empty array =>
    refine absurd (due_eq_none.mpr fun event head => ?_) some'
    rw [array] at head
    exact absurd head.symm (Option.some_ne_none event)
  | @top event rest _ split array others =>
    have order := timed.wellFormed.sorted
    rw [split] at order
    have run : ran (dispatcher.log ++ [.ran event (dispatcher.timeEvents.time event)]) =
        ran dispatcher.log ++ [(event,dispatcher.timeEvents.time event)] := ran_append _ _
    have now : dispatcher.timeEvents.time event ≤ newStep := by
      refine Int.not_lt.mp fun early => some' (due_eq_none.mpr fun other head => ?_)
      rw [split] at head
      cases head
      rw [timed.clock]
      exact early
    refine ⟨timed.toAccounts.operated (.top split array others ‹_›) wellFormed (Nat.le_refl _)
      (fun event member => (List.not_mem_nil member).elim) List.nodup_nil rfl rfl rfl rfl,timed.clock,?_,?_,fun is => ?_⟩
    · change ∀ one ∈ ran (dispatcher.log ++ [.ran event (dispatcher.timeEvents.time event)]), one.2 ≤ newStep
      rw [run]
      intro one member
      rcases List.mem_append.mp member with old | new
      · exact timed.due one old
      · cases List.mem_singleton.mp new
        exact now
    · exact (called_append _ _).trans ((List.append_nil _).trans timed.uncalled)
    · obtain ⟨sorted,below⟩ := timed.ordered is
      change (ran (dispatcher.log ++ [.ran event (dispatcher.timeEvents.time event)])).Pairwise _ ∧
        ∀ one ∈ ran (dispatcher.log ++ [.ran event (dispatcher.timeEvents.time event)]), _
      rw [run]
      have gone : event ∉ rest := @not_mem_of_split dispatcher.timeEvents timed.wellFormed [] rest event split
      have here : event ∈ dispatcher.timeEvents.array := split ▸ List.mem_cons_self
      refine ⟨List.pairwise_append.mpr ⟨sorted,List.pairwise_singleton _ _,fun one member next member' => ?_⟩,
        fun one member other stored => ?_⟩
      · cases List.mem_singleton.mp member'
        exact below one member event here
      · have stored : other ∈ rest := array ▸ stored
        have untouched : events.time other = dispatcher.timeEvents.time other := others.time fun is => gone (is ▸ stored)
        dsimp only
        rw [untouched]
        rcases List.mem_append.mp member with old | new
        · exact below one old other (split ▸ List.mem_cons_of_mem _ stored)
        · cases List.mem_singleton.mp new
          exact (List.pairwise_cons.mp order).1 other stored

/-- The loop ends when nothing is due. -/
theorem Timed.timedLoop {later : Prop} {rest : List (List Call)} (timed : Timed first newStep later dispatcher)
    (ahead : later → Later behaviours) (same : timedLoop behaviours dispatcher = some (rest,after)) :
    Timed first newStep later after ∧ after.due = none := by
  induction behaviours generalizing dispatcher with
  | nil =>
    unfold Dispatcher.timedLoop at same
    split at same
    · rename_i none'
      cases same
      exact ⟨timed,Option.isNone_iff_eq_none.mp none'⟩
    · exact absurd same.symm (Option.some_ne_none _)
  | cons calls behaviours ih =>
    unfold Dispatcher.timedLoop at same
    split at same
    · rename_i none'
      cases same
      exact ⟨timed,Option.isNone_iff_eq_none.mp none'⟩
    · rename_i some'
      obtain ⟨between,popped,same⟩ := Option.bind_eq_some_iff.mp same
      obtain ⟨handled,done,same⟩ := Option.bind_eq_some_iff.mp same
      have popped := timed.getTop (fun none' => some' (Option.isNone_iff_eq_none.mpr none')) popped
      refine ih ?_ (fun is calls member => ahead is calls (List.mem_cons_of_mem _ member)) same
      refine executeHandle_invariant (fun dispatcher timed => timed.toAccounts.sound) (fun dispatcher call after timed member => ?_)
        popped done
      exact timed.called fun is => ahead is calls List.mem_cons_self call member

end Timed

section Queue

variable {first middle dispatcher after : Dispatcher} {newStep : Int} {behaviours rest : List (List Call)}

/-- The handlers of the queue run behind the time events. -/
structure Behind (first middle dispatcher : Dispatcher) : Prop extends Accounts first dispatcher where
  sameRan : ran dispatcher.log = ran middle.log
  later : middle.log <+: dispatcher.log

theorem Behind.called {call : Call} (behind : Behind first middle dispatcher) (called : Called dispatcher call after) :
    Behind first middle after := by
  obtain ⟨ran',_,longer,_⟩ := called.frame
  exact ⟨behind.toAccounts.called called,ran'.trans behind.sameRan,behind.later.trans longer⟩

theorem Behind.handled {calls : List Call} (behind : Behind first middle dispatcher)
    (done : executeHandle calls dispatcher = some after) : Behind first middle after :=
  executeHandle_invariant (fun _ behind => behind.toAccounts.sound) (fun _ _ _ behind _ called => behind.called called) behind done

/-- What leaves the queue is called, or nothing leaves it. -/
theorem Accounts.happened (accounts : Accounts first dispatcher) {happening : Happening} {queue : List (Nat × Nat)} (step : Int)
    (unadded : added [happening] = []) (unran : ran [happening] = []) (uncancelled : cancelled [happening] = [])
    (unasked : enqueued [happening] = []) (calls : dispatcher.callQueue = Dispatcher.called [happening] ++ queue) :
    Accounts first {dispatcher with currentStep := step,callQueue := queue,log := dispatcher.log ++ [happening]} := by
  have unadded : added (dispatcher.log ++ [happening]) = added dispatcher.log := by
    rw [added_append,unadded,List.append_nil]
  have unasked : enqueued (dispatcher.log ++ [happening]) = enqueued dispatcher.log := by
    rw [enqueued_append,unasked,List.append_nil]
  refine ⟨accounts.wellFormed,?_,?_,?_,?_,?_,?_⟩ <;> dsimp only
  · rw [unadded]
    exact accounts.fresh
  · rw [unadded]
    exact accounts.distinct
  · rw [unadded,ran_append,unran,cancelled_append,uncancelled,List.append_nil,List.append_nil]
    exact accounts.events
  · rw [unasked]
    exact accounts.elements
  · rw [unasked]
    exact accounts.once
  · rw [unasked,accounts.calls,calls,called_append,List.append_assoc]

theorem Behind.popped {element handle : Nat} {queue : List (Nat × Nat)} (behind : Behind first middle dispatcher)
    (head : dispatcher.callQueue = (element,handle) :: queue) :
    Behind first middle (dispatcher.popCall newStep element handle queue) := by
  have unran : ran (dispatcher.log ++ [.called element handle]) = ran dispatcher.log := (ran_append _ _).trans (List.append_nil _)
  refine ⟨behind.toAccounts.happened newStep rfl rfl rfl rfl head,?_,behind.later.trans (List.prefix_append _ _)⟩
  change ran (dispatcher.log ++ [.called element handle]) = _
  rw [unran]
  exact behind.sameRan

/-- The loop ends when the queue is empty. -/
theorem Behind.callLoop (behind : Behind first middle dispatcher)
    (same : callLoop newStep behaviours dispatcher = some (rest,after)) : Behind first middle after ∧ after.callQueue = [] := by
  induction behaviours generalizing dispatcher with
  | nil =>
    unfold Dispatcher.callLoop at same
    split at same
    · rename_i empty
      cases same
      exact ⟨behind,List.isEmpty_iff.mp empty⟩
    · exact absurd same.symm (Option.some_ne_none _)
  | cons calls behaviours ih =>
    unfold Dispatcher.callLoop at same
    split at same
    · rename_i empty
      cases same
      exact ⟨behind,empty⟩
    · rename_i element handle queue head
      obtain ⟨between,done,same⟩ := Option.bind_eq_some_iff.mp same
      exact ih ((behind.popped head).handled done) same

/-- The handler for an empty container takes nothing from the queue. -/
theorem Behind.whenEmpty (behind : Behind first middle dispatcher) (same : dispatcher.whenEmpty behaviours = some after) :
    Behind first middle after ∧ Dispatcher.called after.log = Dispatcher.called dispatcher.log ∧ dispatcher.log <+: after.log := by
  unfold Dispatcher.whenEmpty at same
  split at same
  · rename_i handle _ _
    obtain ⟨calls,_,same⟩ := Option.bind_eq_some_iff.mp same
    obtain ⟨ended,done,same⟩ := Option.map_eq_some_iff.mp same
    have kept : Behind first middle ended ∧ Dispatcher.called ended.log = Dispatcher.called dispatcher.log ∧
        dispatcher.log <+: ended.log := by
      refine executeHandle_invariant (I := fun between => Behind first middle between ∧
        Dispatcher.called between.log = Dispatcher.called dispatcher.log ∧ dispatcher.log <+: between.log)
        (fun _ kept => kept.1.toAccounts.sound) ?_ ⟨⟨?_,?_,?_⟩,?_,List.prefix_append _ _⟩ done
      · intro between call next kept _ called
        obtain ⟨_,calls,longer,_⟩ := called.frame
        exact ⟨kept.1.called called,calls.trans kept.2.1,kept.2.2.trans longer⟩
      · exact behind.toAccounts.happened dispatcher.currentStep rfl rfl rfl rfl rfl
      · exact ((ran_append _ _).trans (List.append_nil _)).trans behind.sameRan
      · exact behind.later.trans (List.prefix_append _ _)
      · exact (called_append _ _).trans (List.append_nil _)
    subst same
    exact ⟨kept.1.called (@Called.other ended (.continueWhenEmpty none) none),kept.2⟩
  · cases same
    exact ⟨behind,rfl,List.prefix_refl _⟩

end Queue

section Promises

variable {before after : Dispatcher} {newStep : Int} {behaviours : List (List Call)}

/-- What a step did until its timed loop ended. -/
structure RanDue (before : Dispatcher) (newStep : Int) (behaviours : List (List Call)) (middle : Dispatcher) : Prop where
  due : ∀ run ∈ ran middle.log, run.2 ≤ newStep
  ordered : Later behaviours → (ran middle.log).Pairwise fun run next => run.2 ≤ next.2
  once : ((ran middle.log).map Prod.fst).Nodup
  all : (before.timeEvents.array ++ added middle.log).Perm
    ((ran middle.log).map Prod.fst ++ cancelled middle.log ++ middle.timeEvents.array)
  left : ∀ event ∈ middle.timeEvents.array, newStep < middle.timeEvents.time event
  uncalled : called middle.log = []

/-- What it did behind that, until the queue was empty. -/
structure RanQueue (before middle ended after : Dispatcher) : Prop where
  behind : middle.log <+: ended.log ∧ ended.log <+: after.log
  untimed : ran after.log = ran middle.log
  cancelled : ∀ event ∈ cancelled after.log, event ∉ (ran after.log).map Prod.fst
  queue : called ended.log = before.callQueue ++ enqueued ended.log
  once : ((called ended.log).map Prod.fst).Nodup
  empty : ended.callQueue = []
  uncalled : called after.log = called ended.log

/-- What a step that ends promises. -/
def Promises (before : Dispatcher) : Prop := ∀ newStep behaviours after, before.step newStep behaviours = some after →
  ∃ middle ended behaviours' behaviours'', timedLoop behaviours (before.start newStep) = some (behaviours',middle) ∧
    callLoop newStep behaviours' middle = some (behaviours'',ended) ∧ ended.whenEmpty behaviours'' = some after ∧
    RanDue before newStep behaviours middle ∧ RanQueue before middle ended after

theorem step_accounts (sound : Sound before) (stepped : before.step newStep behaviours = some after) :
    Accounts before after ∧ ∃ middle ended behaviours' behaviours'',
      timedLoop behaviours (before.start newStep) = some (behaviours',middle) ∧
      callLoop newStep behaviours' middle = some (behaviours'',ended) ∧ ended.whenEmpty behaviours'' = some after ∧
      RanDue before newStep behaviours middle ∧ RanQueue before middle ended after := by
  obtain ⟨⟨behaviours',middle⟩,timed,stepped⟩ := Option.bind_eq_some_iff.mp stepped
  obtain ⟨⟨behaviours'',ended⟩,queued,stepped⟩ := Option.bind_eq_some_iff.mp stepped
  have start : Timed before newStep (Later behaviours) (before.start newStep) :=
    ⟨sound.start newStep,rfl,fun _ member => (List.not_mem_nil member).elim,rfl,
      fun _ => ⟨List.Pairwise.nil,fun _ member => (List.not_mem_nil member).elim⟩⟩
  obtain ⟨ran',none'⟩ := start.timedLoop id timed
  obtain ⟨behind,empty⟩ := (⟨ran'.toAccounts,rfl,List.prefix_refl _⟩ : Behind before middle middle).callLoop queued
  obtain ⟨last,uncalled,longer⟩ := behind.whenEmpty stepped
  have left := none_due ran'.wellFormed none'
  rw [ran'.clock] at left
  have accounts := last.toAccounts
  have distinct := (accounts.events.nodup_iff).mp accounts.distinct
  have distinct' := (ran'.events.nodup_iff).mp ran'.distinct
  refine ⟨accounts,middle,ended,behaviours',behaviours'',timed,queued,stepped,
    ⟨ran'.due,fun later => (ran'.ordered later).1,?_,ran'.events,left,ran'.uncalled⟩,
    ⟨⟨behind.later,longer⟩,last.sameRan,fun event member member' => ?_,?_,?_,empty,uncalled⟩⟩
  · exact (List.nodup_append.mp (List.nodup_append.mp distinct').1).1
  · exact (List.nodup_append.mp (List.nodup_append.mp distinct).1).2.2 event member' event member rfl
  · have calls := behind.calls
    rw [empty,List.append_nil] at calls
    exact calls.symm
  · have once := behind.once
    rw [behind.calls,empty,List.append_nil] at once
    exact once

/-- What happens to a dispatcher: calls from outside of its steps, and steps. -/
inductive Input
  | call (call : Call)
  | step (newStep : Int) (behaviours : List (List Call))
  deriving DecidableEq, Repr

/-- An assertion that fails, and a step that does not end, have no result. -/
def move (dispatcher : Dispatcher) : Input → Dispatcher
  | .call call => ((dispatcher.start dispatcher.currentStep).call call).getD dispatcher
  | .step newStep behaviours => (dispatcher.step newStep behaviours).getD dispatcher

theorem Sound.move (sound : Sound before) (input : Input) : Sound (before.move input) := by
  cases input with
  | call call =>
    have accounts := sound.start before.currentStep
    cases result : (before.start before.currentStep).call call with
    | none =>
      rw [show before.move (.call call) = before from congrArg (fun result => Option.getD result before) result]
      exact sound
    | some after =>
      rw [show before.move (.call call) = after from congrArg (fun result => Option.getD result before) result]
      exact (accounts.called (call_cases accounts.sound result)).sound
  | step newStep behaviours =>
    cases result : before.step newStep behaviours with
    | none =>
      rw [show before.move (.step newStep behaviours) = before from congrArg (fun result => Option.getD result before) result]
      exact sound
    | some after =>
      rw [show before.move (.step newStep behaviours) = after from congrArg (fun result => Option.getD result before) result]
      exact (step_accounts sound result).1.sound

/-- Whatever was done to the dispatcher before, each step that ends runs what is due and then the queue: every event and every
element once, none that was cancelled, the events by their times unless a handler sets a time that is over. -/
theorem promises_run (inputs : List Input) : Runs.Always move Promises {} inputs := by
  have start : Sound {} := ⟨create_wellFormed,fun _ member => (List.not_mem_nil member).elim,
    fun _ member => (List.not_mem_nil member).elim,List.nodup_nil⟩
  refine (Runs.always_of_invariant (fun _ input sound => sound.move input) start).mono fun dispatcher sound => ?_
  exact fun newStep behaviours after stepped => (step_accounts sound stepped).2

/-- The first handler cancels the next event, adds one for now and puts two handles into the queue. -/
example : ((Runs.final move {} [.call (.executeIn 1 4 none true true),.call (.executeIn 2 5 (some 101) true true)]).step 5
    [[.cancel 101,.executeIn 3 0 none true true,.execute 7 true,.execute 8 true],[],[],[]]).map
      (fun after => (ran after.log,called after.log)) = some ([(0,4),(2,5)],[(3,7),(4,8)]) := by decide

/-- No handler adds an event for a time that is over. -/
def AddsLater (behaviours : List (List Call)) : Prop := ∀ calls ∈ behaviours, ∀ call ∈ calls,
  ∀ handle timeDiff ret alloc allocVector, call = .executeIn handle timeDiff ret alloc allocVector → 0 ≤ timeDiff

/-- The first handler restarts the second event for a time that is over. -/
theorem restart_unordered : ¬ ∀ inputs newStep behaviours after, (Runs.final move {} inputs).step newStep behaviours = some after →
    AddsLater behaviours → (ran after.log).Pairwise fun run next => run.2 ≤ next.2 := by
  intro ordered
  have pairwise := ordered [.call (.executeIn 1 5 none true true),.call (.executeIn 2 10 (some 100) true true)] 10
    [[.restart 100 (-8)],[]] _ rfl (fun calls member call member' handle timeDiff ret alloc allocVector is => ?_)
  · exact absurd pairwise (by decide)
  · subst is
    simp at member
    rcases member with rfl | rfl <;> simp at member'

end Promises

end Dispatcher

end XivelyClient.EventDispatcher
