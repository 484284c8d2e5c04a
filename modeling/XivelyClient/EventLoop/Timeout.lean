import XivelyClient.EventDispatcher.BackLinks
import XivelyClient.EventDispatcher.Dispatcher
import XivelyClient.EventDispatcher.FileEvents

/-! The timeout for `select` (`xi_event_loop.c`). The time of the earliest event of each dispatcher is taken before the handlers of
its file descriptors run. -/
namespace XivelyClient.EventLoop
open EventDispatcher

/-- The parts of `xi_evtd_instance_t` that the timeout depends on. -/
structure Instance where
  dispatcher : Dispatcher
  files : Descriptors

/-- What a handler of a file descriptor does to one of the dispatchers. -/
inductive LoopCall
  | onDispatcher (evtd : Nat) (asked : Call)
  | onFiles (evtd : Nat) (asked : FileCall)
  deriving DecidableEq, Repr

def LoopCall.perform (instances : List Instance) : LoopCall → Except Stop (List Instance)
  | .onDispatcher evtd asked =>
    match instances[evtd]? with
    | none => .ok instances
    | some own =>
      match own.dispatcher.call asked with
      | none => .error .assertion
      | some dispatcher => .ok (instances.set evtd {own with dispatcher := dispatcher})
  | .onFiles evtd asked =>
    match instances[evtd]? with
    | none => .ok instances
    | some own =>
      match FileWalk.call {files := own.files} asked with
      | .error stop => .error stop
      | .ok walk => .ok (instances.set evtd {own with files := walk.files})

def executeHandle : List Instance → List LoopCall → Except Stop (List Instance)
  | instances,[] => .ok instances
  | instances,asked :: calls =>
    match asked.perform instances with
    | .error stop => .error stop
    | .ok instances => executeHandle instances calls

/-- `xi_evtd_update_file_fd_events` of one of the dispatchers, from the element `i` on. Each turn takes the next of the
behaviours. -/
def fileEvents (evtd : Nat) : Nat → Bool → List Instance → List (List LoopCall) →
    Except Stop (Bool × List Instance × List (List LoopCall))
  | i,wasThereAnEvent,instances,behaviours =>
    match instances[evtd]? with
    | none => .error .outside
    | some own =>
      if i < own.files.container.elemNo then
        match behaviours with
        | [] => .error .starved
        | calls :: behaviours =>
          match FileWalk.enter {files := own.files,index := i} with
          | .error stop => .error stop
          | .ok (false,entered) => fileEvents evtd (i + 1) (wasThereAnEvent || entered.wasThereAnEvent) instances behaviours
          | .ok (true,entered) =>
            match executeHandle (instances.set evtd {own with files := entered.files}) calls with
            | .error stop => .error stop
            | .ok instances => fileEvents evtd (i + 1) (wasThereAnEvent || entered.wasThereAnEvent) instances behaviours
      else .ok (wasThereAnEvent,instances,behaviours)

/-- `xi_evtd_get_time_of_earliest_event`, with no result where the container is empty. -/
def getTimeOfEarliestEvent (dispatcher : Dispatcher) : Option Int :=
  dispatcher.timeEvents.peekTop.map dispatcher.timeEvents.time

/-- The candidate is there once it has been set. -/
def pick (timeoutCandidate : Option Int) (own : Instance) : Option Int :=
  match getTimeOfEarliestEvent own.dispatcher with
  | none => timeoutCandidate
  | some tmpTimeout =>
    match timeoutCandidate with
    | none => some tmpTimeout
    | some candidate => some (min candidate tmpTimeout)

/-- The loop over the dispatchers, of which so many are left from `evtd` on. -/
def transformFrom : Nat → Nat → Option Int → Bool → List Instance → List (List LoopCall) →
    Except Stop (Option Int × Bool × List Instance)
  | 0,_,timeoutCandidate,wasFileUpdated,instances,_ => .ok (timeoutCandidate,wasFileUpdated,instances)
  | left + 1,evtd,timeoutCandidate,wasFileUpdated,instances,behaviours =>
    match instances[evtd]? with
    | none => .error .assertion
    | some own =>
      match fileEvents evtd 0 false instances behaviours with
      | .error stop => .error stop
      | .ok (event,instances,behaviours) =>
        transformFrom left (evtd + 1) (pick timeoutCandidate own) (wasFileUpdated || event) instances behaviours

def defaultIdleTimeout : Int := 1

def maxIdleTimeout : Int := 5

def recalculate (timeoutCandidate : Option Int) (currentTime : Int) : Int :=
  match timeoutCandidate with
  | some candidate => if candidate ≥ currentTime then candidate - currentTime else 0
  | none => defaultIdleTimeout

/-- What there is when the function returns. -/
structure Selected where
  outTimeout : Int
  wasFileUpdated : Bool
  instances : List Instance

/-- The timeout of `xi_bsp_event_loop_transform_to_bsp_select`. -/
def timeoutForSelect (instances : List Instance) (currentTime : Int) (behaviours : List (List LoopCall)) : Except Stop Selected :=
  if instances.isEmpty then .error (.returned .invalidParameter)
  else
    match transformFrom instances.length 0 none false instances behaviours with
    | .error stop => .error stop
    | .ok (timeoutCandidate,wasFileUpdated,instances) => .ok {
        outTimeout := if wasFileUpdated then 0 else min (recalculate timeoutCandidate currentTime) maxIdleTimeout
        wasFileUpdated := wasFileUpdated
        instances := instances}

/-- The times of the events that wait. -/
def Instance.times (own : Instance) : List Int := own.dispatcher.timeEvents.array.map own.dispatcher.timeEvents.time

structure Instance.Sound (own : Instance) : Prop where
  files : own.files.Files
  timeEvents : own.dispatcher.timeEvents.WellFormed

/-- The timeout is no longer than anything that waits allows. -/
structure NeverOversleeps (currentTime : Int) (selected : Selected) : Prop where
  bounded : selected.outTimeout ≤ maxIdleTimeout
  early : ∀ own ∈ selected.instances, ∀ time ∈ own.times, selected.outTimeout ≤ max 0 (time - currentTime)
  files : selected.wasFileUpdated = true → selected.outTimeout = 0
  queue : (∃ own ∈ selected.instances, own.dispatcher.callQueue ≠ []) → selected.outTimeout = 0

section Files

variable {evtd : Nat}

/-- Once there was an event there was one. -/
theorem fileEvents_true {i : Nat} {instances : List Instance} {behaviours : List (List LoopCall)} {event : Bool}
    {rest : List Instance × List (List LoopCall)} (done : fileEvents evtd i true instances behaviours = .ok (event,rest)) :
    event = true := by
  induction behaviours generalizing i instances with
  | nil =>
    rw [fileEvents] at done
    cases here : instances[evtd]? with
    | none =>
      rw [here] at done
      cases done
    | some own =>
      simp only [here] at done
      split_ifs at done
      exact (Prod.mk.inj (Except.ok.inj done)).1.symm
  | cons calls behaviours ih =>
    rw [fileEvents] at done
    cases here : instances[evtd]? with
    | none =>
      rw [here] at done
      cases done
    | some own =>
      simp only [here] at done
      split_ifs at done
      · cases enters : FileWalk.enter {files := own.files,index := i} with
        | error stop =>
          rw [enters] at done
          cases done
        | ok result =>
          obtain ⟨executes,entered⟩ := result
          rw [enters] at done
          cases executes with
          | false => exact ih done
          | true =>
            simp only at done
            cases executed : executeHandle (instances.set evtd {own with files := entered.files}) calls with
            | error stop =>
              rw [executed] at done
              cases done
            | ok instances' =>
              rw [executed] at done
              exact ih done
      · exact (Prod.mk.inj (Except.ok.inj done)).1.symm

theorem not_behind_end {files : Descriptors} (kept : files.Files) {i : Nat} (ended : ¬ (i : Int) < files.container.elemNo)
    {tuple : FdTuple} : ¬ SwapDelete.Behind files.view i tuple :=
  SwapDelete.not_behind_length (by have := kept.sound.elemNo; omega)

/-- Either a descriptor is dispatched that wants to be, or nothing is done. -/
theorem fileEvents_cases {i : Nat} {instances instances' : List Instance} {own : Instance} {event : Bool}
    {behaviours behaviours' : List (List LoopCall)} (files : own.files.Files) (here : instances[evtd]? = some own)
    (done : fileEvents evtd i false instances behaviours = .ok (event,instances',behaviours')) :
    (event = true ∧ ∃ tuple, SwapDelete.Behind own.files.view i tuple ∧ tuple.Wanted) ∨
      (event = false ∧ instances' = instances ∧ ∀ tuple, SwapDelete.Behind own.files.view i tuple → ¬ tuple.Wanted) := by
  induction behaviours generalizing i with
  | nil =>
    rw [fileEvents] at done
    simp only [here] at done
    split_ifs at done with running
    obtain ⟨rfl,rest⟩ := Prod.mk.inj (Except.ok.inj done)
    exact .inr ⟨rfl,(Prod.mk.inj rest).1.symm,fun tuple behind => absurd behind (not_behind_end files running)⟩
  | cons calls behaviours ih =>
    rw [fileEvents] at done
    simp only [here] at done
    split_ifs at done with running
    · obtain ⟨tuple,found⟩ := @FileWalk.here_of_index {files := own.files,index := i} files running
      rw [@FileWalk.enter_eq {files := own.files,index := i} files _ found] at done
      by_cases wanted : tuple.Wanted
      · rw [if_pos wanted] at done
        simp only at done
        refine .inl ⟨?_,tuple,⟨i,le_rfl,found⟩,wanted⟩
        split at done
        · cases done
        · exact fileEvents_true done
      · rw [if_neg wanted] at done
        obtain ⟨flag,other,behind,wanted'⟩ | ⟨flag,same,none⟩ := ih done
        · exact .inl ⟨flag,other,(SwapDelete.behind_succ found).mpr (.inr behind),wanted'⟩
        · refine .inr ⟨flag,same,fun other behind => ?_⟩
          obtain rfl | behind := (SwapDelete.behind_succ found).mp behind
          · exact wanted
          · exact none other behind
    · obtain ⟨rfl,rest⟩ := Prod.mk.inj (Except.ok.inj done)
      exact .inr ⟨rfl,(Prod.mk.inj rest).1.symm,fun tuple behind => absurd behind (not_behind_end files running)⟩

end Files

section Candidates

/-- The least of the times, if there is any. -/
def Least : Option Int → List Int → Prop
  | none,times => times = []
  | some least,times => least ∈ times ∧ ∀ time ∈ times, least ≤ time

/-- The container is in the order of the times. -/
theorem earliest_least {own : Instance} (sound : own.Sound) : Least (getTimeOfEarliestEvent own.dispatcher) own.times := by
  have sorted := sound.timeEvents.sorted
  rw [getTimeOfEarliestEvent,TimeEvents.peekTop,Instance.times]
  cases array : own.dispatcher.timeEvents.array with
  | nil => rfl
  | cons first rest =>
    rw [array] at sorted
    refine ⟨List.mem_cons_self,fun time member => ?_⟩
    obtain ⟨event,among,rfl⟩ := List.mem_map.mp member
    obtain rfl | later := List.mem_cons.mp among
    · exact le_rfl
    · exact (List.pairwise_cons.mp sorted).1 event later

theorem pick_least {own : Instance} (sound : own.Sound) {candidate : Option Int} {times : List Int} (least : Least candidate times) :
    Least (pick candidate own) (times ++ own.times) := by
  have own' := earliest_least sound
  rw [pick]
  cases earliest : getTimeOfEarliestEvent own.dispatcher with
  | none =>
    rw [earliest] at own'
    rwa [show own.times = [] from own',List.append_nil]
  | some tmpTimeout =>
    rw [earliest] at own'
    obtain ⟨member',below'⟩ := own'
    cases candidate with
    | none =>
      obtain rfl : times = [] := least
      exact ⟨member',below'⟩
    | some candidate =>
      obtain ⟨member,below⟩ := least
      refine ⟨?_,fun time among => ?_⟩
      · rw [List.mem_append]
        obtain less | less := le_total candidate tmpTimeout
        · rw [min_eq_left less]
          exact .inl member
        · rw [min_eq_right less]
          exact .inr member'
      · obtain old | new := List.mem_append.mp among
        · exact (min_le_left _ _).trans (below time old)
        · exact (min_le_right _ _).trans (below' time new)

end Candidates

section Dispatchers

theorem transformFrom_true {left evtd : Nat} {candidate candidate' : Option Int} {instances instances' : List Instance}
    {behaviours : List (List LoopCall)} {updated : Bool}
    (done : transformFrom left evtd candidate true instances behaviours = .ok (candidate',updated,instances')) : updated = true := by
  induction left generalizing evtd candidate instances behaviours with
  | zero => exact (Prod.mk.inj (Prod.mk.inj (Except.ok.inj done)).2).1.symm
  | succ left ih =>
    rw [transformFrom] at done
    cases here : instances[evtd]? with
    | none =>
      rw [here] at done
      cases done
    | some own =>
      simp only [here] at done
      split at done
      · cases done
      · exact ih done

/-- Either a descriptor is dispatched that wants to be, or the candidate is the least of the times and nothing is done. -/
theorem transformFrom_cases {left evtd : Nat} {candidate candidate' : Option Int} {instances instances' : List Instance}
    {behaviours : List (List LoopCall)} {updated : Bool} {times : List Int} (sound : ∀ own ∈ instances, own.Sound)
    (all : instances.length = evtd + left) (least : Least candidate times)
    (done : transformFrom left evtd candidate false instances behaviours = .ok (candidate',updated,instances')) :
    (updated = true ∧ ∃ own ∈ instances, ∃ tuple ∈ own.files.view, tuple.Wanted) ∨
      (updated = false ∧ instances' = instances ∧ (∀ own ∈ instances.drop evtd, ∀ tuple ∈ own.files.view, ¬ tuple.Wanted) ∧
        Least candidate' (times ++ (instances.drop evtd).flatMap Instance.times)) := by
  induction left generalizing evtd candidate behaviours times with
  | zero =>
    obtain ⟨rfl,rest⟩ := Prod.mk.inj (Except.ok.inj done)
    obtain ⟨rfl,rfl⟩ := Prod.mk.inj rest
    rw [List.drop_eq_nil_of_le (by omega)]
    exact .inr ⟨rfl,rfl,fun _ member => absurd member List.not_mem_nil,by rwa [List.flatMap_nil,List.append_nil]⟩
  | succ left ih =>
    have inside : evtd < instances.length := by omega
    have here : instances[evtd]? = some instances[evtd] := List.getElem?_eq_getElem inside
    have sound' := sound instances[evtd] (List.getElem_mem inside)
    rw [transformFrom] at done
    simp only [here] at done
    cases filed : fileEvents evtd 0 false instances behaviours with
    | error stop =>
      rw [filed] at done
      cases done
    | ok result =>
      obtain ⟨event,instances₁,behaviours₁⟩ := result
      rw [filed] at done
      rcases fileEvents_cases sound'.files here filed with ⟨rfl,tuple,behind,wanted⟩ | ⟨rfl,rfl,none⟩
      · exact .inl ⟨transformFrom_true done,_,List.getElem_mem inside,tuple,behind.mem,wanted⟩
      · rcases ih (by omega) (pick_least sound' least) done with loud | ⟨flag,same,quiet,least'⟩
        · exact .inl loud
        · rw [List.drop_eq_getElem_cons inside,List.flatMap_cons,← List.append_assoc]
          refine .inr ⟨flag,same,?_,least'⟩
          exact List.forall_mem_cons.mpr ⟨fun tuple member => none tuple (SwapDelete.behind_zero.mpr member),quiet⟩

end Dispatchers

theorem recalculate_bounds {candidate : Option Int} {times : List Int} (least : Least candidate times) (now : Int) :
    (∀ time ∈ times, min (recalculate candidate now) maxIdleTimeout ≤ max 0 (time - now)) ∧
      (min (recalculate candidate now) maxIdleTimeout = 0 ↔ ∃ time ∈ times, time ≤ now) := by
  cases candidate with
  | none =>
    obtain rfl : times = [] := least
    have idle : min (recalculate none now) maxIdleTimeout ≠ 0 := (by decide : min defaultIdleTimeout maxIdleTimeout ≠ 0)
    exact ⟨fun _ member => absurd member List.not_mem_nil,iff_of_false idle fun ⟨_,member,_⟩ => List.not_mem_nil member⟩
  | some candidate =>
    obtain ⟨member,below⟩ := least
    have early (time : Int) (among : time ∈ times) : recalculate (some candidate) now ≤ max 0 (time - now) := by
      have bound := below time among
      rw [recalculate]
      split_ifs <;> omega
    refine ⟨fun time among => (min_le_left _ _).trans (early time among),?_⟩
    rw [recalculate,maxIdleTimeout]
    constructor
    · intro zero
      refine ⟨candidate,member,?_⟩
      split_ifs at zero <;> omega
    · rintro ⟨time,among,due⟩
      have bound := below time among
      split_ifs <;> omega

/-- The timeout is at most the idle one and never sleeps over a time event. It is 0 while a handle waits in a queue exactly if it is
0 for another reason: a file descriptor is dispatched, or a time event is due. -/
theorem neverOversleeps_iff (instances : List Instance) (sound : ∀ own ∈ instances, own.Sound) (currentTime : Int)
    (behaviours : List (List LoopCall)) (selected : Selected) (done : timeoutForSelect instances currentTime behaviours = .ok selected) :
    NeverOversleeps currentTime selected ↔
      (∀ own ∈ instances, own.dispatcher.callQueue = []) ∨ (∃ own ∈ instances, ∃ tuple ∈ own.files.view, tuple.Wanted) ∨
        ∃ own ∈ instances, ∃ time ∈ own.times, time ≤ currentTime := by
  rw [timeoutForSelect] at done
  split_ifs at done
  cases transformed : transformFrom instances.length 0 none false instances behaviours with
  | error stop =>
    rw [transformed] at done
    cases done
  | ok result =>
    obtain ⟨candidate,updated,instances'⟩ := result
    rw [transformed] at done
    obtain rfl := Except.ok.inj done
    rcases transformFrom_cases sound (by omega) (show Least none [] from rfl) transformed with ⟨rfl,wanted⟩ | ⟨rfl,rfl,quiet,least⟩
    · refine iff_of_true ⟨?_,?_,fun _ => rfl,fun _ => rfl⟩ (.inr (.inl wanted))
      · exact (by decide : (0 : Int) ≤ maxIdleTimeout)
      · exact fun _ _ _ _ => le_max_left _ _
    · rw [List.nil_append,List.drop_zero] at least
      obtain ⟨early,zero⟩ := recalculate_bounds least currentTime
      constructor
      · rintro ⟨_,_,_,queue⟩
        by_cases idle : ∃ own ∈ instances', own.dispatcher.callQueue ≠ []
        · obtain ⟨time,member,due⟩ := zero.mp (queue idle)
          obtain ⟨own,among,member⟩ := List.mem_flatMap.mp member
          exact .inr (.inr ⟨own,among,time,member,due⟩)
        · refine .inl fun own among => ?_
          by_contra waits
          exact idle ⟨own,among,waits⟩
      · intro either
        refine ⟨min_le_right _ _,?_,fun flag => absurd flag Bool.false_ne_true,?_⟩
        · exact fun own among time member => early time (List.mem_flatMap.mpr ⟨own,among,member⟩)
        · rintro ⟨own,among,waits⟩
          rcases either with empty | ⟨other,among',tuple,member,wanted⟩ | ⟨other,among',time,member,due⟩
          · exact absurd (empty own among) waits
          · exact absurd wanted (quiet other (by rwa [List.drop_zero]) tuple member)
          · exact zero.mpr ⟨time,List.mem_flatMap.mpr ⟨other,among',member⟩,due⟩

/-- Three file descriptors wait to be read beside a handle in the queue. -/
def busy : Instance where
  dispatcher := {callQueue := [(0,7)],allocated := 1}
  files := threeFiles

theorem neverOversleeps_busy : ∃ selected, timeoutForSelect [busy] 100 [[],[],[.onDispatcher 0 (.execute 8 true)]] = .ok selected ∧
    NeverOversleeps 100 selected := by
  refine ⟨_,rfl,(neverOversleeps_iff [busy] ?_ 100 [[],[],[.onDispatcher 0 (.execute 8 true)]] _ rfl).mpr (.inr (.inl ?_))⟩
  · exact List.forall_mem_singleton.mpr ⟨threeFiles_files,TimeEvents.create_wellFormed⟩
  · exact ⟨busy,List.mem_singleton_self busy,⟨0,0,0,wantRead,.file⟩,by decide,by decide⟩

/-- A handle waits in the queue, and nothing else. -/
def queued : Instance where
  dispatcher := {callQueue := [(0,7)],allocated := 1}
  files := {container := {array := [0,0],elemNo := 0,capacity := 2,memoryType := .managed}}

/-- The queue is not looked at. -/
theorem timeoutForSelect_oversleeps : queued.Sound ∧ ∃ selected, timeoutForSelect [queued] 100 [] = .ok selected ∧
    selected.outTimeout = 1 ∧ ¬ NeverOversleeps 100 selected := by
  refine ⟨⟨⟨⟨⟨by decide,by decide,by decide,by decide,by decide⟩,rfl,by decide,by decide,by decide⟩,by decide⟩,
    TimeEvents.create_wellFormed⟩,_,rfl,rfl,fun never => ?_⟩
  have zero := never.queue ⟨queued,List.mem_singleton_self queued,by decide⟩
  exact absurd zero (by decide)

end XivelyClient.EventLoop
