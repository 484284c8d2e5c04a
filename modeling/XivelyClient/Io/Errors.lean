import XivelyClient.Io.ResourceManager
import Mathlib.Data.List.Count

/-! What becomes of an error that the file system answers. -/
namespace XivelyClient.ResourceManager

def IsError (state : XiState) : Prop := state ≠ .ok ∧ state ≠ .wantRead

/-- The callback has been run once with the error, the descriptor is gone, and whatever the dispatcher does changes nothing more. -/
def Reported (operation : Operation) (fd : Int) (error : XiState) (manager : Manager) : Prop :=
  manager.ran = [error] ∧ fd ∉ manager.registered ∧ ∀ events, run operation fd events manager = some manager

/-- The last answer of a step, if the step has asked. -/
def answered (before after : Manager) : Option XiState := (after.answers.drop before.answers.length).getLast?

/-- An error that is answered while the operation is in progress is reported. -/
def Wanted (operation : Operation) (fd : Int) (manager : Manager) (event : Event) : Prop :=
  manager.context.callback ≠ none → ∀ manager', next operation fd manager event = some manager' →
    ∀ error, answered manager manager' = some error → IsError error → Reported operation fd error manager'

/-- The turn of the coroutine in an event, if it is invoked. -/
def invocation (fd : Int) (manager : Manager) : Event → Option Turn
  | .handle turn => if manager.queue.head? = some .coroutine then some turn else none
  | .file turn => if fd ∈ manager.registered then some turn else none

/-- Where a read will stand behind the bytes that come with its answer. -/
def offsetAfter (context : Context) (answer : Answer) : Nat :=
  ((if context.cs = .read then context.dataOffset else 0) + answer.bufferSize) % 2 ^ 64

/-- An error of a read comes with the bytes that complete the resource. -/
def Completing (operation : Operation) (fd : Int) (manager : Manager) (event : Event) : Prop :=
  operation = .read → manager.context.callback ≠ none → ∀ turn, invocation fd manager event = some turn →
    manager.context.cs = .read ∨ (turn.register = true ∧ fd ∉ manager.registered) → IsError turn.answer.state →
      manager.context.resourceSize ≤ offsetAfter manager.context turn.answer

section Step

variable {fd : Int} {manager manager' : Manager} {turn : Turn} {operation : Operation}

/-- An operation that waits for its next turn. -/
structure InProgress (fd : Int) (manager : Manager) : Prop where
  callback : manager.context.callback = some .ok
  resourceHandle : manager.context.resourceHandle = fd
  queue : manager.queue = []
  ran : manager.ran = []
  once : manager.registered.count fd ≤ 1

/-- Before its first turn the coroutine is in the queue. -/
def Going (fd : Int) (manager : Manager) : Prop :=
  manager.context.callback ≠ none → InProgress fd {manager with queue := []} ∧
    (manager.queue = [] ∨ (manager.queue = [.coroutine] ∧ fd ∉ manager.registered))

theorem InProgress.unregister (progress : InProgress fd manager) :
    InProgress fd (unregisterFileFd fd manager) ∧ fd ∉ (unregisterFileFd fd manager).registered := by
  have count : (manager.registered.erase fd).count fd = 0 := by
    rw [List.count_erase_self]
    have := progress.once
    omega
  exact ⟨⟨progress.callback,progress.resourceHandle,progress.queue,progress.ran,by rw [unregisterFileFd,count]; omega⟩,
    List.count_eq_zero.mp count⟩

/-- The manager when the function of the file system is called. -/
def called (resumed : Bool) (state : XiState) (manager : Manager) : Manager :=
  {manager with
    registered := if resumed then manager.registered else manager.registered ++ [manager.context.resourceHandle]
    answers := manager.answers ++ [state]}

/-- A block after the call touches its context alone, and there neither callback nor descriptor. -/
def Local (post : Post) : Prop := ∀ state manager jumps state' manager', post state manager = some (jumps,state',manager') →
  ∃ context, manager' = {manager with context} ∧ context.callback = manager.context.callback ∧
    context.resourceHandle = manager.context.resourceHandle

theorem yieldFrom_called {resumed : Bool} (cs : Cs) {alloc : Bool} {fd : Int} (handle : manager.context.resourceHandle = fd)
    (enters : resumed = true ∨ (alloc = true ∧ fd ∉ manager.registered)) (state : XiState) (post : Post) :
    yieldFrom resumed cs alloc state post manager = (post state (called resumed state manager)).map (afterCall cs) := by
  cases resumed with
  | true => rfl
  | false =>
    obtain ⟨rfl,new⟩ : alloc = true ∧ fd ∉ manager.registered := by simpa using enters
    rw [yieldFrom,registerFileFd,handle,called,handle]
    simp only [Bool.false_eq_true,if_false,if_neg new,if_true,Option.bind_some]

theorem called_progress {resumed : Bool} {alloc : Bool} (progress : InProgress fd manager)
    (enters : resumed = true ∨ (alloc = true ∧ fd ∉ manager.registered)) (state : XiState) :
    InProgress fd (called resumed state manager) := by
  refine ⟨progress.callback,progress.resourceHandle,progress.queue,progress.ran,?_⟩
  rw [called,progress.resourceHandle]
  cases resumed with
  | true => exact progress.once
  | false =>
    obtain ⟨_,new⟩ : alloc = true ∧ fd ∉ manager.registered := by simpa using enters
    simp [List.count_eq_zero.mpr new]

/-- How the four ways out of a yield come about. -/
theorem yieldFrom_cases {resumed : Bool} {cs : Cs} {alloc : Bool} {state : XiState} {post : Post} {yield : Yield}
    (inside : Local post) (progress : InProgress fd manager) (yielded : yieldFrom resumed cs alloc state post manager = some yield) :
    (yield = .failed .outOfMemory manager ∧ resumed = false ∧ alloc = false) ∨
      ((resumed = true ∨ (alloc = true ∧ fd ∉ manager.registered)) ∧
        ∃ jumps state' manager', post state (called resumed state manager) = some (jumps,state',manager') ∧ InProgress fd manager' ∧
          manager'.answers = manager.answers ++ [state] ∧
          ((jumps = true ∧ yield = .failed state' manager') ∨
            (jumps = false ∧ state' = .wantRead ∧ yield = .waiting {manager' with context.cs := cs}) ∨
            (jumps = false ∧ state' = .ok ∧ yield = .done (unregisterFileFd fd manager')) ∨
            (jumps = false ∧ IsError state' ∧ yield = .failed state' (unregisterFileFd fd manager')))) := by
  by_cases enters : resumed = true ∨ (alloc = true ∧ fd ∉ manager.registered)
  · refine .inr ⟨enters,?_⟩
    rw [yieldFrom_called cs progress.resourceHandle enters] at yielded
    obtain ⟨⟨jumps,state',after⟩,posted,rfl⟩ := Option.map_eq_some_iff.mp yielded
    obtain ⟨context,rfl,callback,handle⟩ := inside _ _ _ _ _ posted
    have entered := called_progress progress enters state
    have handle' : context.resourceHandle = fd := handle.trans entered.resourceHandle
    refine ⟨jumps,state',_,posted,⟨callback.trans entered.callback,handle',entered.queue,entered.ran,entered.once⟩,rfl,?_⟩
    rw [afterCall]
    cases jumps with
    | true => simp
    | false =>
      by_cases waits : state' = .wantRead
      · simp [waits]
      · by_cases ok : state' = .ok
        · simp [ok,handle']
        · simp [waits,ok,handle',IsError]
  · obtain ⟨fresh,refused⟩ := not_or.mp enters
    simp only [yieldFrom,if_neg fresh,registerFileFd,progress.resourceHandle] at yielded
    split at yielded
    · cases yielded
    · rename_i new
      have lacks : alloc = false := by simpa [new] using refused
      rw [lacks] at yielded
      exact .inl ⟨(Option.some.inj yielded).symm,by simpa using fresh,lacks⟩

/-- What `Reported` needs of the manager itself. -/
structure Settled (fd : Int) (error : XiState) (manager : Manager) : Prop where
  ran : manager.ran = [error]
  callback : manager.context.callback = none
  queue : manager.queue = []
  unregistered : fd ∉ manager.registered

theorem Settled.reported {error : XiState} (settled : Settled fd error manager) : Reported operation fd error manager := by
  refine ⟨settled.ran,settled.unregistered,?_⟩
  intro events
  induction events with
  | nil => rfl
  | cons event events ih =>
    cases event with
    | handle turn => simpa [run,next,settled.queue] using ih
    | file turn => simpa [run,next,settled.unregistered] using ih

theorem fail_settled (progress : InProgress fd manager) (gone : fd ∉ manager.registered) (resets : Bool) (state : XiState) :
    Settled fd state (fail resets state manager) where
  ran := by simp [fail,progress.ran,progress.callback,setCallbackState]
  callback := rfl
  queue := progress.queue
  unregistered := gone

theorem invokeCallback_done (callback : manager.context.callback = some .ok) (resets execute : Bool) :
    (invokeCallback resets execute manager).context.callback = none ∧
      (invokeCallback resets execute manager).answers = manager.answers := by
  rw [invokeCallback,callback]
  cases execute <;> exact ⟨rfl,rfl⟩

theorem answered_same (same : manager'.answers = manager.answers) : answered manager manager' = none := by
  rw [answered,same,List.drop_length]
  rfl

/-- What one turn of a coroutine comes to: the last answer, if it is an error, is settled or swallowed. -/
structure Turned (fd : Int) (answer : Option XiState) (swallowed : Prop) (manager' : Manager) : Prop where
  going : manager'.context.callback ≠ none → InProgress fd manager'
  settled : ∀ error, answer = some error → IsError error → ¬ swallowed → Settled fd error manager'
  swallowed : swallowed → manager'.context.callback ≠ none

theorem turned_failed (progress : InProgress fd manager) (gone : fd ∉ manager.registered) (resets : Bool) (state : XiState) :
    Turned fd (some state) False (fail resets state manager) where
  going running := absurd (fail_settled progress gone resets state).callback running
  settled _ same _ _ := Option.some.inj same ▸ fail_settled progress gone resets state
  swallowed := False.elim

/-- Without an error in the answer nothing is to be settled. -/
theorem turned_other {answer : Option XiState} (calm : ∀ error, answer = some error → ¬ IsError error)
    (going : manager'.context.callback ≠ none → InProgress fd manager') : Turned fd answer False manager' :=
  ⟨going,fun error same isError _ => absurd isError (calm error same),False.elim⟩

theorem noPost_local : Local noPost := by
  rintro state manager jumps state' manager' ⟨⟩
  exact ⟨_,rfl,rfl,rfl⟩

theorem openResource_turned {resumed : Bool} (progress : InProgress fd manager)
    (stepped : openResource resumed turn manager = some manager') :
    ∃ states, manager'.answers = manager.answers ++ states ∧ Turned fd states.getLast? False manager' := by
  obtain ⟨yield,yielded,rfl⟩ := Option.map_eq_some_iff.mp stepped
  obtain ⟨rfl,_,_⟩ | ⟨_,jumps,state',after,posted,after_,answers,ways⟩ := yieldFrom_cases noPost_local progress yielded
  · exact ⟨[],by simp [fail],turned_other (by simp) fun running => absurd rfl running⟩
  · obtain ⟨rfl,rfl,rfl⟩ : jumps = false ∧ state' = turn.openAnswer.state ∧ after = called resumed turn.openAnswer.state manager := by
      simpa [noPost,eq_comm] using posted
    refine ⟨[turn.openAnswer.state],?_⟩
    obtain ⟨jumped,_⟩ | ⟨_,waits,rfl⟩ | ⟨_,ok,rfl⟩ | ⟨_,isError,rfl⟩ := ways
    · cases jumped
    · refine ⟨answers,turned_other ?_ fun _ => ⟨after_.callback,after_.resourceHandle,after_.queue,after_.ran,after_.once⟩⟩
      simp [waits,IsError]
    · obtain ⟨gone,kept⟩ := @invokeCallback_done {unregisterFileFd fd (called resumed turn.openAnswer.state manager) with
        context.resourceHandle := turn.openAnswer.handle} after_.callback true turn.execute
      refine ⟨kept.trans answers,turned_other ?_ fun running => absurd gone running⟩
      simp [ok,IsError]
    · exact ⟨answers,turned_failed after_.unregister.1 after_.unregister.2 true _⟩

theorem InProgress.withCs (progress : InProgress fd manager) (cs : Cs) : InProgress fd {manager with context.cs := cs} :=
  ⟨progress.callback,progress.resourceHandle,progress.queue,progress.ran,progress.once⟩

theorem openCoroutine_turned (progress : InProgress fd manager) (stepped : openCoroutine turn manager = some manager') :
    ∃ states, manager'.answers = manager.answers ++ states ∧ Turned fd states.getLast? False manager' := by
  rw [openCoroutine] at stepped
  split at stepped
  · exact openResource_turned progress stepped
  · obtain ⟨yield,yielded,rest⟩ := Option.bind_eq_some_iff.mp stepped
    have inside : Local fun state manager => some (false,state,{manager with context.resourceSize := turn.answer.size}) := by
      rintro state manager jumps state' manager' ⟨⟩
      exact ⟨_,rfl,rfl,rfl⟩
    obtain ⟨rfl,_,_⟩ | ⟨_,jumps,state',after,posted,after_,answers,ways⟩ := yieldFrom_cases inside progress yielded
    · obtain rfl := Option.some.inj rest
      exact ⟨[],by simp [fail],turned_other (by simp) fun running => absurd rfl running⟩
    · obtain ⟨rfl,rfl,_⟩ : jumps = false ∧ state' = turn.answer.state ∧ _ = after := by simpa [eq_comm] using posted
      obtain ⟨jumped,_⟩ | ⟨_,waits,rfl⟩ | ⟨_,ok,rfl⟩ | ⟨_,isError,rfl⟩ := ways
      · cases jumped
      · obtain rfl := Option.some.inj rest
        refine ⟨[turn.answer.state],answers,turned_other ?_ fun _ => after_.withCs .stat⟩
        simp [waits,IsError]
      · obtain ⟨states,more,turned⟩ := openResource_turned after_.unregister.1 rest
        refine ⟨turn.answer.state :: states,?_,?_⟩
        · rw [more,unregisterFileFd,answers,List.append_assoc,List.singleton_append]
        · cases states with
          | nil => exact turned_other (by simp [ok,IsError]) turned.going
          | cons state states => rwa [List.getLast?_cons_cons]
      · obtain rfl := Option.some.inj rest
        exact ⟨_,answers,turned_failed after_.unregister.1 after_.unregister.2 true _⟩

theorem closeCoroutine_turned (progress : InProgress fd manager) (stepped : closeCoroutine turn manager = some manager') :
    ∃ states, manager'.answers = manager.answers ++ states ∧ Turned fd states.getLast? False manager' := by
  obtain ⟨yield,yielded,rest⟩ := Option.bind_eq_some_iff.mp stepped
  obtain ⟨rfl,_,_⟩ | ⟨_,jumps,state',after,posted,after_,answers,ways⟩ := yieldFrom_cases noPost_local progress yielded
  · obtain rfl := Option.some.inj rest
    exact ⟨[],by simp [fail],turned_other (by simp) fun running => absurd rfl running⟩
  · obtain ⟨rfl,rfl,_⟩ : jumps = false ∧ state' = turn.answer.state ∧ _ = after := by simpa [noPost,eq_comm] using posted
    refine ⟨[turn.answer.state],?_⟩
    obtain ⟨jumped,_⟩ | ⟨_,waits,rfl⟩ | ⟨_,ok,rfl⟩ | ⟨_,isError,rfl⟩ := ways
    · cases jumped
    · obtain rfl := Option.some.inj rest
      exact ⟨answers,turned_other (by simp [waits,IsError]) fun _ => after_.withCs .close⟩
    · simp only at rest
      split at rest
      · obtain rfl := Option.some.inj rest
        obtain ⟨gone,kept⟩ := @invokeCallback_done {unregisterFileFd fd after with context.resourceHandle := -1} after_.callback false
          turn.execute
        exact ⟨kept.trans answers,turned_other (by simp [ok,IsError]) fun running => absurd gone running⟩
      · cases rest
    · obtain rfl := Option.some.inj rest
      exact ⟨answers,turned_failed after_.unregister.1 after_.unregister.2 false _⟩

/-- The block after a read stores in the buffer alone. -/
theorem accumulate_context {state state' : XiState} {context context' : Context} {jumps : Bool}
    (accumulated : accumulate turn state context = some (jumps,state',context')) :
    ∃ buffer, context' = {context with dataBuffer := buffer} := by
  have kept : context = {context with dataBuffer := context.dataBuffer} := rfl
  rw [accumulate] at accumulated
  cases buffer : context.dataBuffer with
  | none =>
    simp only [buffer] at accumulated
    split at accumulated
    · obtain ⟨bytes,_,same⟩ := Option.map_eq_some_iff.mp accumulated
      split at same
      · exact ⟨_,(congrArg (·.2.2) same).symm⟩
      · exact ⟨_,(congrArg (·.2.2) same).symm.trans kept⟩
    · split at accumulated
      · split at accumulated
        · cases accumulated
        · split at accumulated
          · exact ⟨_,(congrArg (·.2.2) (Option.some.inj accumulated)).symm⟩
          · exact ⟨_,(congrArg (·.2.2) (Option.some.inj accumulated)).symm.trans kept⟩
      · exact ⟨_,(congrArg (·.2.2) (Option.some.inj accumulated)).symm.trans kept⟩
  | some desc =>
    simp only [buffer] at accumulated
    split at accumulated
    · obtain ⟨_,_,same⟩ := Option.map_eq_some_iff.mp accumulated
      exact ⟨_,(congrArg (·.2.2) same).symm⟩
    · exact ⟨_,(congrArg (·.2.2) (Option.some.inj accumulated)).symm.trans kept⟩

theorem accumulate_error {state : XiState} (isError : IsError state) (context : Context) :
    accumulate turn state context = some (false,state,context) := by
  rw [accumulate]
  cases context.dataBuffer with
  | none => simp [isError.1,isError.2]
  | some desc => simp [isError.1,isError.2]

theorem readPost_local (turn : Turn) : Local (readPost turn) := by
  intro state manager jumps state' manager' posted
  obtain ⟨⟨_,_,context⟩,accumulated,same⟩ := Option.map_eq_some_iff.mp posted
  obtain ⟨buffer,rfl⟩ := accumulate_context accumulated
  simp only [Prod.mk.injEq] at same
  obtain ⟨_,_,rfl⟩ := same
  exact ⟨_,rfl,rfl,rfl⟩

/-- An error is overwritten as long as bytes are missing. -/
theorem readPost_error {state : XiState} (isError : IsError state) (manager : Manager) :
    ∃ manager', readPost turn state manager = some (false,
      if (manager.context.dataOffset + turn.answer.bufferSize) % 2 ^ 64 < manager.context.resourceSize then .wantRead else state,manager') := by
  refine ⟨{manager with context.dataOffset := (manager.context.dataOffset + turn.answer.bufferSize) % 2 ^ 64},?_⟩
  simp only [readPost,isError.1,false_and,if_false,accumulate_error isError]
  simp

/-- The function of the file system is called in this turn. -/
def Calls (fd : Int) (cs : Cs) (manager : Manager) (turn : Turn) : Prop :=
  manager.context.cs = cs ∨ (turn.register = true ∧ fd ∉ manager.registered)

def Swallows (fd : Int) (manager : Manager) (turn : Turn) : Prop :=
  Calls fd .read manager turn ∧ IsError turn.answer.state ∧ offsetAfter manager.context turn.answer < manager.context.resourceSize

theorem resetOffset_eq (manager : Manager) :
    resetOffset manager =
      {manager with context.dataOffset := if manager.context.cs = .read then manager.context.dataOffset else 0} := by
  rw [resetOffset]
  split
  · rfl
  · rfl

theorem InProgress.reset (progress : InProgress fd manager) : InProgress fd (resetOffset manager) := by
  rw [resetOffset_eq]
  exact ⟨progress.callback,progress.resourceHandle,progress.queue,progress.ran,progress.once⟩

theorem readCoroutine_turned (progress : InProgress fd manager) (stepped : readCoroutine turn manager = some manager') :
    ∃ states, manager'.answers = manager.answers ++ states ∧ Turned fd states.getLast? (Swallows fd manager turn) manager' ∧
      (Calls fd .read manager turn → states = [turn.answer.state]) := by
  obtain ⟨yield,yielded,rest⟩ := Option.bind_eq_some_iff.mp stepped
  have answersReset : (resetOffset manager).answers = manager.answers := by rw [resetOffset_eq]
  have registeredReset : (resetOffset manager).registered = manager.registered := by rw [resetOffset_eq]
  obtain ⟨rfl,fresh,refused⟩ | ⟨entered,jumps,state',after,posted,after_,answers,ways⟩ :=
    yieldFrom_cases (readPost_local turn) progress.reset yielded
  · have silent : ¬ Calls fd .read manager turn := by
      rintro (resumed | ⟨registers,_⟩)
      · exact absurd resumed (of_decide_eq_false fresh)
      · rw [refused] at registers
        cases registers
    obtain rfl := Option.some.inj rest
    refine ⟨[],by simp [fail,answersReset],⟨fun running => absurd rfl running,by simp,fun swallows => (silent swallows.1).elim⟩,?_⟩
    exact fun calls => (silent calls).elim
  · rw [answersReset] at answers
    have calls : Calls fd .read manager turn := by
      rw [registeredReset] at entered
      exact entered.imp of_decide_eq_true id
    refine ⟨[turn.answer.state],?_⟩
    by_cases isError : IsError turn.answer.state
    · obtain ⟨_,posted'⟩ := @readPost_error turn _ isError (called (decide (manager.context.cs = .read)) turn.answer.state (resetOffset manager))
      rw [posted'] at posted
      have offset : ((called (decide (manager.context.cs = .read)) turn.answer.state (resetOffset manager)).context.dataOffset +
          turn.answer.bufferSize) % 2 ^ 64 = offsetAfter manager.context turn.answer := by
        rw [called,resetOffset_eq,offsetAfter]
      have size : (called (decide (manager.context.cs = .read)) turn.answer.state (resetOffset manager)).context.resourceSize =
          manager.context.resourceSize := by rw [called,resetOffset_eq]
      rw [offset,size] at posted
      obtain ⟨rfl,rfl,_⟩ : jumps = false ∧ state' = (if offsetAfter manager.context turn.answer < manager.context.resourceSize then
          XiState.wantRead else turn.answer.state) ∧ _ = after := by simpa [eq_comm] using posted
      by_cases missing : offsetAfter manager.context turn.answer < manager.context.resourceSize
      · obtain rfl : yield = .waiting {after with context.cs := .read} := by simpa [missing,IsError] using ways
        obtain rfl := Option.some.inj rest
        refine ⟨answers,⟨fun _ => after_.withCs .read,?_,?_⟩,fun _ => rfl⟩
        · intro _ _ _ calm
          exact absurd ⟨calls,isError,missing⟩ calm
        · intro _
          rw [after_.callback]
          exact Option.some_ne_none _
      · obtain rfl : yield = .failed turn.answer.state (unregisterFileFd fd after) := by
          simpa [missing,isError,isError.1,isError.2] using ways
        obtain rfl := Option.some.inj rest
        have failed := turned_failed after_.unregister.1 after_.unregister.2 false turn.answer.state
        refine ⟨answers,⟨failed.going,?_,?_⟩,fun _ => rfl⟩
        · intro error same errs _
          exact failed.settled error same errs id
        · exact fun swallows => absurd swallows.2.2 missing
    · have calm : ¬ Swallows fd manager turn := fun swallows => isError swallows.2.1
      suffices kept : manager'.answers = manager.answers ++ [turn.answer.state] ∧
          (manager'.context.callback ≠ none → InProgress fd manager') by
        refine ⟨kept.1,⟨kept.2,?_,fun swallows => absurd swallows calm⟩,fun _ => rfl⟩
        intro error same errs _
        obtain rfl := Option.some.inj same
        exact absurd errs isError
      obtain ⟨_,rfl⟩ | ⟨_,_,rfl⟩ | ⟨_,_,rfl⟩ | ⟨_,_,rfl⟩ := ways
      · obtain rfl := Option.some.inj rest
        exact ⟨answers,fun running => absurd rfl running⟩
      · obtain rfl := Option.some.inj rest
        exact ⟨answers,fun _ => after_.withCs .read⟩
      · simp only at rest
        split at rest
        · obtain rfl := Option.some.inj rest
          obtain ⟨gone,kept⟩ := @invokeCallback_done (unregisterFileFd fd after) after_.callback false turn.execute
          exact ⟨kept.trans answers,fun running => absurd gone running⟩
        · cases rest
      · obtain rfl := Option.some.inj rest
        exact ⟨answers,fun running => absurd rfl running⟩

/-- A read whose error is swallowed comes back. -/
theorem readCoroutine_swallows (progress : InProgress fd manager) (swallows : Swallows fd manager turn) :
    ∃ manager', readCoroutine turn manager = some manager' := by
  obtain ⟨calls,isError,missing⟩ := swallows
  obtain ⟨after,posted⟩ := @readPost_error turn _ isError (called (decide (manager.context.cs = .read)) turn.answer.state (resetOffset manager))
  have waits : (if ((called (decide (manager.context.cs = .read)) turn.answer.state (resetOffset manager)).context.dataOffset +
      turn.answer.bufferSize) % 2 ^ 64 <
        (called (decide (manager.context.cs = .read)) turn.answer.state (resetOffset manager)).context.resourceSize then
          XiState.wantRead else turn.answer.state) = .wantRead := by
    rw [called,resetOffset_eq]
    exact if_pos missing
  rw [waits] at posted
  have enters : decide (manager.context.cs = .read) = true ∨ (turn.register = true ∧ fd ∉ (resetOffset manager).registered) := by
    rw [resetOffset_eq]
    exact calls.imp decide_eq_true id
  rw [readCoroutine,yieldFrom_called .read progress.reset.resourceHandle enters,posted]
  exact ⟨_,rfl⟩

def Yield.held : Yield → Manager
  | .waiting manager => manager
  | .failed _ manager => manager
  | .done manager => manager

theorem registerFileFd_context {alloc registered : Bool} {entered : Manager}
    (enters : registerFileFd fd alloc manager = some (registered,entered)) :
    entered.context = manager.context ∧ entered.ran = manager.ran := by
  rw [registerFileFd] at enters
  split at enters
  · cases enters
  · split at enters
    · obtain ⟨_,rfl⟩ := Prod.mk.inj (Option.some.inj enters)
      exact ⟨rfl,rfl⟩
    · obtain ⟨_,rfl⟩ := Prod.mk.inj (Option.some.inj enters)
      exact ⟨rfl,rfl⟩

theorem afterCall_held (cs : Cs) (jumps : Bool) (state : XiState) (after : Manager) :
    (afterCall cs (jumps,state,after)).held.context.callback = after.context.callback ∧
      (afterCall cs (jumps,state,after)).held.ran = after.ran := by
  rw [afterCall]
  split
  · exact ⟨rfl,rfl⟩
  · split
    · exact ⟨rfl,rfl⟩
    · split
      · exact ⟨rfl,rfl⟩
      · exact ⟨rfl,rfl⟩

/-- A yield leaves the callback alone. -/
theorem yieldFrom_callback {resumed : Bool} {cs : Cs} {alloc : Bool} {state : XiState} {post : Post} {yield : Yield}
    (inside : Local post) (yielded : yieldFrom resumed cs alloc state post manager = some yield) :
    yield.held.context.callback = manager.context.callback ∧ yield.held.ran = manager.ran := by
  obtain ⟨⟨registered,entered⟩,enters,rest⟩ := Option.bind_eq_some_iff.mp yielded
  have same : entered.context = manager.context ∧ entered.ran = manager.ran := by
    cases resumed with
    | true =>
      obtain ⟨_,rfl⟩ := Prod.mk.inj (Option.some.inj enters)
      exact ⟨rfl,rfl⟩
    | false => exact registerFileFd_context enters
  simp only at rest
  split at rest
  · obtain ⟨⟨jumps,state',after⟩,posted,rfl⟩ := Option.map_eq_some_iff.mp rest
    obtain ⟨context,rfl,callback,_⟩ := inside _ _ _ _ _ posted
    obtain ⟨callback',ran⟩ := afterCall_held cs jumps state' {entered with context,answers := entered.answers ++ [state]}
    exact ⟨callback'.trans (callback.trans (congrArg Context.callback same.1)),ran.trans same.2⟩
  · obtain rfl := Option.some.inj rest
    exact ⟨congrArg Context.callback same.1,same.2⟩

theorem invokeCallback_silent (silent : manager.context.callback = none) (resets execute : Bool) :
    (invokeCallback resets execute manager).context.callback = none := by
  rw [invokeCallback,silent]
  rfl

theorem openResource_silent {resumed : Bool} (silent : manager.context.callback = none)
    (stepped : openResource resumed turn manager = some manager') : manager'.context.callback = none := by
  obtain ⟨yield,yielded,rfl⟩ := Option.map_eq_some_iff.mp stepped
  have kept := (yieldFrom_callback noPost_local yielded).1.trans silent
  cases yield with
  | waiting manager => exact kept
  | failed state manager => rfl
  | done manager => exact @invokeCallback_silent {manager with context.resourceHandle := turn.openAnswer.handle} kept true turn.execute

/-- A callback that has been disposed of stays so. -/
theorem coroutine_silent (silent : manager.context.callback = none) (stepped : operation.coroutine turn manager = some manager') :
    manager'.context.callback = none := by
  cases operation with
  | «open» =>
    simp only [Operation.coroutine,openCoroutine] at stepped
    split at stepped
    · exact openResource_silent silent stepped
    · obtain ⟨yield,yielded,rest⟩ := Option.bind_eq_some_iff.mp stepped
      have inside : Local fun state manager => some (false,state,{manager with context.resourceSize := turn.answer.size}) := by
        rintro state manager jumps state' manager' ⟨⟩
        exact ⟨_,rfl,rfl,rfl⟩
      have kept := (yieldFrom_callback inside yielded).1.trans silent
      cases yield with
      | waiting manager => exact Option.some.inj rest ▸ kept
      | failed state manager => exact Option.some.inj rest ▸ rfl
      | done manager => exact openResource_silent kept rest
  | read =>
    obtain ⟨yield,yielded,rest⟩ := Option.bind_eq_some_iff.mp stepped
    have reset : (resetOffset manager).context.callback = none := by
      rw [resetOffset_eq]
      exact silent
    have kept := (yieldFrom_callback (readPost_local turn) yielded).1.trans reset
    cases yield with
    | waiting manager => exact Option.some.inj rest ▸ kept
    | failed state manager => exact Option.some.inj rest ▸ rfl
    | done manager =>
      simp only at rest
      split at rest
      · exact Option.some.inj rest ▸ invokeCallback_silent kept false turn.execute
      · cases rest
  | close =>
    obtain ⟨yield,yielded,rest⟩ := Option.bind_eq_some_iff.mp stepped
    have kept := (yieldFrom_callback noPost_local yielded).1.trans silent
    cases yield with
    | waiting manager => exact Option.some.inj rest ▸ kept
    | failed state manager => exact Option.some.inj rest ▸ rfl
    | done manager =>
      simp only at rest
      split at rest
      · exact Option.some.inj rest ▸ @invokeCallback_silent {manager with context.resourceHandle := -1} kept false turn.execute
      · cases rest

theorem coroutine_turned (progress : InProgress fd manager) (stepped : operation.coroutine turn manager = some manager') :
    Turned fd (answered manager manager') (operation = .read ∧ Swallows fd manager turn) manager' ∧
      (operation = .read → Calls fd .read manager turn → answered manager manager' = some turn.answer.state) := by
  have ofStates : ∀ states, manager'.answers = manager.answers ++ states → answered manager manager' = states.getLast? := by
    intro states answers
    rw [answered,answers,List.drop_left]
  cases operation with
  | «open» =>
    obtain ⟨states,answers,turned⟩ := openCoroutine_turned progress stepped
    rw [ofStates states answers]
    simpa using turned
  | read =>
    obtain ⟨states,answers,turned,only⟩ := readCoroutine_turned progress stepped
    rw [ofStates states answers]
    refine ⟨by simpa using turned,?_⟩
    intro _ calls
    rw [only calls]
    rfl
  | close =>
    obtain ⟨states,answers,turned⟩ := closeCoroutine_turned progress stepped
    rw [ofStates states answers]
    simpa using turned

/-- In an operation that is going on an event invokes the coroutine, or does nothing. -/
theorem next_cases (going : Going fd manager) (running : manager.context.callback ≠ none) (event : Event) :
    (invocation fd manager event = none ∧ next operation fd manager event = some manager) ∨
      ∃ turn, invocation fd manager event = some turn ∧ next operation fd manager event = operation.coroutine turn {manager with queue := []} := by
  obtain ⟨progress,empty | ⟨queued,absent⟩⟩ := going running
  · have same : {manager with queue := []} = manager := by rw [← empty]
    cases event with
    | handle turn => exact .inl (by simp [invocation,next,empty])
    | file turn =>
      by_cases member : fd ∈ manager.registered
      · exact .inr ⟨turn,by simp [invocation,member],by simp [next,member,same]⟩
      · exact .inl (by simp [invocation,next,member])
  · cases event with
    | handle turn => exact .inr ⟨turn,by simp [invocation,queued],by simp [next,queued]⟩
    | file turn => exact .inl (by simp [invocation,next,absent])

theorem next_silent (silent : manager.context.callback = none) {event : Event}
    (stepped : next operation fd manager event = some manager') : manager'.context.callback = none := by
  cases event with
  | handle turn =>
    simp only [next] at stepped
    split at stepped
    · exact Option.some.inj stepped ▸ silent
    · exact Option.some.inj stepped ▸ silent
    · rename_i queue _
      exact @coroutine_silent {manager with queue} manager' turn operation silent stepped
  | file turn =>
    simp only [next] at stepped
    split at stepped
    · exact coroutine_silent silent stepped
    · exact Option.some.inj stepped ▸ silent

/-- The operation waits again, or its callback is gone. -/
theorem next_going (going : Going fd manager) {event : Event} (stepped : next operation fd manager event = some manager') :
    Going fd manager' := by
  by_cases silent : manager.context.callback = none
  · exact fun running => absurd (next_silent silent stepped) running
  · obtain ⟨_,idle⟩ | ⟨turn,_,invoked⟩ := @next_cases fd manager operation going silent event
    · rw [idle] at stepped
      obtain rfl := Option.some.inj stepped
      exact going
    · rw [invoked] at stepped
      intro running'
      have progress := (coroutine_turned (going silent).1 stepped).1.going running'
      exact ⟨⟨progress.callback,progress.resourceHandle,rfl,progress.ran,progress.once⟩,.inl progress.queue⟩

/-- Each step reports its error exactly if an error of a read does not come before the end of the resource. -/
theorem wanted_iff_completing (going : Going fd manager) (event : Event) :
    Wanted operation fd manager event ↔ Completing operation fd manager event := by
  by_cases silent : manager.context.callback = none
  · exact iff_of_true (fun running => absurd silent running) fun _ running => absurd silent running
  obtain ⟨uncalled,idle⟩ | ⟨turn,isTurn,invoked⟩ := @next_cases fd manager operation going silent event
  · refine iff_of_true ?_ (fun _ _ turn isTurn => by rw [uncalled] at isTurn; cases isTurn)
    intro _ manager' stepped error asked
    rw [idle] at stepped
    obtain rfl := Option.some.inj stepped
    rw [answered_same rfl] at asked
    cases asked
  · have progress := (going silent).1
    constructor
    · intro wanted isRead _ turn' isTurn' calls isError
      obtain rfl := Option.some.inj (isTurn.symm.trans isTurn')
      obtain rfl := isRead
      by_contra missing
      have swallows : Swallows fd {manager with queue := []} turn := ⟨calls,isError,Nat.lt_of_not_le missing⟩
      obtain ⟨after,stepped⟩ := readCoroutine_swallows progress swallows
      obtain ⟨turned,asked⟩ := @coroutine_turned fd _ after turn .read progress stepped
      have reported := wanted silent after (invoked.trans stepped) _ (asked rfl calls) isError
      have running := turned.swallowed ⟨rfl,swallows⟩
      have ran := (turned.going running).ran
      rw [reported.1] at ran
      cases ran
    · intro completing _ after stepped error asked isError
      rw [invoked] at stepped
      have turned := (coroutine_turned progress stepped).1
      apply Settled.reported
      apply turned.settled error asked isError
      rintro ⟨isRead,calls,errs,missing⟩
      exact absurd (completing isRead silent turn isTurn calls errs) (Nat.not_le_of_lt missing)

theorem going_of_started (started : manager.Started) : Going manager.context.resourceHandle manager := by
  obtain ⟨callback,queue,ran,absent⟩ := started
  intro _
  exact ⟨⟨callback,rfl,rfl,ran,by rw [List.count_eq_zero.mpr absent]; omega⟩,.inr ⟨queue,absent⟩⟩

end Step

/-- In the run of an operation every error is reported once and ends it, exactly if no error of a read comes before the end of the
resource. -/
theorem each_reported_iff {operation : Operation} {manager : Manager} (started : manager.Started) (events : List Event) :
    Runs.Each (next operation manager.context.resourceHandle) (Wanted operation manager.context.resourceHandle) manager events ↔
      Runs.Each (next operation manager.context.resourceHandle) (Completing operation manager.context.resourceHandle) manager events := by
  apply Runs.each_iff
  · intro state event going
    exact wanted_iff_completing going event
  · intro state event state' going _ stepped
    exact next_going going stepped
  · exact going_of_started started

/-- A context with an open resource of four bytes whose read has been accepted. -/
def reading : Manager := {context := {callback := some .ok,resourceSize := 4,resourceHandle := 3},queue := [.coroutine]}

theorem each_reported_reading : Runs.Each (next .read 3) (Wanted .read 3) reading
    [.handle {answer := {state := .fsReadError,buffer := some [1,2,3,4]}}] := by
  apply (@each_reported_iff .read reading ⟨rfl,rfl,rfl,by decide⟩ _).mpr
  refine ⟨?_,fun _ _ => trivial⟩
  intro _ _ turn isTurn _ _
  obtain rfl := Option.some.inj isTurn
  decide

/-- The first read fails, and the operation waits for the next. -/
theorem error_unreported : ¬ ∀ (operation : Operation) (manager : Manager), manager.Started → ∀ events : List Event,
    Runs.Each (next operation manager.context.resourceHandle) (Wanted operation manager.context.resourceHandle) manager events := by
  intro claim
  have first := (claim .read reading ⟨rfl,rfl,rfl,by decide⟩ [.handle {answer := {state := .fsReadError}}]).1
  have reported := first (by decide) _ rfl .fsReadError rfl ⟨by decide,by decide⟩
  cases reported.1

end XivelyClient.ResourceManager
