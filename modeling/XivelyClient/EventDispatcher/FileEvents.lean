import XivelyClient.EventDispatcher.Descriptors
import XivelyClient.Lib.Runs

/-! The loop over the file descriptors (`xi_evtd_update_file_fd_events`). It goes through the vector by index while the handlers
that it runs change the vector. -/
namespace XivelyClient.EventDispatcher

/-- What a handler does with the file descriptors. -/
inductive FileCall
  | register (eventType : Nat) (fd : Int) (handle : Nat) (alloc allocVector : Bool)
  | unregister (fd : Int)
  deriving DecidableEq, Repr

inductive FileHappening
  | dispatched (fd : Int) (handle : Nat)
  | registered (fd : Int)
  | unregistered (fd : Int)
  deriving DecidableEq, Repr

def FileHappening.dispatched? : FileHappening → Option Int
  | .dispatched fd _ => some fd
  | _ => none

def FileHappening.unregistered? : FileHappening → Option Int
  | .unregistered fd => some fd
  | _ => none

/-- The loop before the element at `index`. -/
structure FileWalk where
  files : Descriptors
  index : Nat := 0
  wasThereAnEvent : Bool := false
  log : List FileHappening := []

namespace FileWalk

def dispatched (walk : FileWalk) : List Int := walk.log.filterMap FileHappening.dispatched?

def unregistered (walk : FileWalk) : List Int := walk.log.filterMap FileHappening.unregistered?

def note (walk : FileWalk) (happening : FileHappening) (files : Descriptors) : FileWalk :=
  {walk with files := files,log := walk.log ++ [happening]}

def call (walk : FileWalk) : FileCall → Except Stop FileWalk
  | .register eventType fd handle alloc allocVector =>
    match walk.files.registerFileFd eventType fd handle alloc allocVector with
    | .error stop => .error stop
    | .ok (true,files) => .ok (walk.note (.registered fd) files)
    | .ok (false,files) => .ok {walk with files := files}
  | .unregister fd =>
    match walk.files.unregisterFd fd with
    | .error stop => .error stop
    | .ok (true,files) => .ok (walk.note (.unregistered fd) files)
    | .ok (false,files) => .ok {walk with files := files}

def act (walk : FileWalk) (asked : FileCall) : Option FileWalk := (walk.call asked).toOption

def executeHandle : FileWalk → List FileCall → Except Stop FileWalk
  | walk,[] => .ok walk
  | walk,call :: calls =>
    match walk.call call with
    | .error stop => .error stop
    | .ok walk => walk.executeHandle calls

/-- `xi_evtd_update_event_on_file` up to the handler. The loop does not look at its answer. -/
def updateEventOnFile (walk : FileWalk) (fd : Int) : Except Stop (Bool × FileWalk) :=
  match walk.files.updateEventOnFd fd with
  | .error stop => .error stop
  | .ok none => .ok (false,{walk with wasThereAnEvent := true})
  | .ok (some (handle,files)) => .ok (true,{walk.note (.dispatched fd handle) files with wasThereAnEvent := true})

/-- The body of the loop up to the handler, and whether there is one to execute. -/
def enter (walk : FileWalk) : Except Stop (Bool × FileWalk) :=
  match walk.files.tupleAt walk.index with
  | .error stop => .error stop
  | .ok (_,tuple) =>
    if tuple.fdType ≠ .file then .error .assertion
    else if 0 < tuple.eventType &&& wantRead then walk.updateEventOnFile tuple.fd
    else if 0 < tuple.eventType &&& wantWrite then walk.updateEventOnFile tuple.fd
    else if 0 < tuple.eventType &&& eventError then walk.updateEventOnFile tuple.fd
    else .ok (false,walk)

def advance (walk : FileWalk) : FileWalk := {walk with index := walk.index + 1}

def iterate (walk : FileWalk) (calls : List FileCall) : Except Stop FileWalk :=
  match walk.enter with
  | .error stop => .error stop
  | .ok (false,entered) => .ok entered.advance
  | .ok (true,entered) =>
    match entered.executeHandle calls with
    | .error stop => .error stop
    | .ok left => .ok left.advance

/-- One turn of the loop. -/
def turn (walk : FileWalk) (calls : List FileCall) : Option FileWalk :=
  if walk.index < walk.files.container.elemNo then (walk.iterate calls).toOption else none

/-- Each turn of the loop takes the next of the behaviours. -/
def loop : FileWalk → List (List FileCall) → Except Stop FileWalk
  | walk,behaviours =>
    if walk.index < walk.files.container.elemNo then
      match behaviours with
      | [] => .error .starved
      | calls :: behaviours =>
        match walk.iterate calls with
        | .error stop => .error stop
        | .ok walk => walk.loop behaviours
    else .ok walk

end FileWalk

def updateFileFdEvents (files : Descriptors) (behaviours : List (List FileCall)) : Except Stop FileWalk :=
  FileWalk.loop {files := files} behaviours

/-- A tuple that the loop dispatches. -/
def FdTuple.Wanted (tuple : FdTuple) : Prop :=
  0 < tuple.eventType &&& wantRead ∨ 0 < tuple.eventType &&& wantWrite ∨ 0 < tuple.eventType &&& eventError

instance (tuple : FdTuple) : Decidable tuple.Wanted := by
  unfold FdTuple.Wanted
  infer_instance

/-- Every tuple of a file container is one of a file. -/
structure Descriptors.Files (files : Descriptors) : Prop where
  sound : files.Sound
  file : ∀ tuple ∈ files.view, tuple.fdType = .file

namespace FileWalk

section Properties

variable (start : List Int) (walk : FileWalk)

/-- Registered at the start, neither unregistered nor dispatched since. -/
def Pending (fd : Int) : Prop := fd ∈ start ∧ fd ∉ walk.unregistered ∧ fd ∉ walk.dispatched

instance (fd : Int) : Decidable (walk.Pending start fd) := by
  unfold Pending
  infer_instance

/-- The call asserts that a descriptor is not registered twice. In a turn of the loop it does not register one that was dispatched
at a place that is still to come, nor does it move a pending one to a place that is behind. -/
def Spares : FileCall → Prop
  | .register _ fd _ _ _ => fd ∉ walk.files.fds ∧ (walk.index < walk.files.fds.length → fd ∉ walk.dispatched)
  | .unregister fd => ∀ p ∈ walk.files.fds.idxOf? fd, p ≤ walk.index → walk.index + 1 < walk.files.fds.length →
      ∀ last ∈ walk.files.fds.getLast?, ¬ walk.Pending start last

instance : ∀ call, Decidable (walk.Spares start call)
  | .register _ _ _ _ _ => by
    unfold Spares
    infer_instance
  | .unregister _ => by
    unfold Spares
    infer_instance

/-- All calls of the handler that this turn executes do. -/
def SparesTurn (calls : List FileCall) : Prop :=
  walk.index < walk.files.container.elemNo → ∀ entered, walk.enter = .ok (true,entered) →
    Runs.Each act (Spares start) entered calls

/-- What was registered at the start was dispatched or unregistered, and nothing was dispatched twice. -/
structure Complete : Prop where
  served : ∀ fd ∈ start, fd ∉ walk.unregistered → fd ∈ walk.dispatched
  once : walk.dispatched.Nodup

/-- What the loop owes its caller, unless it has more turns than there are behaviours for. -/
def Served (turns : Nat) : Except Stop FileWalk → Prop
  | .ok walk => walk.Complete start
  | .error stop => stop = .starved ∧ turns < 127

end Properties

/-- Behind the first `n` places stands nothing that was dispatched, and everything that is still to be. -/
structure Covers (start : List Int) (n : Nat) (walk : FileWalk) : Prop where
  files : walk.files.Files
  apart : ∀ tuple, SwapDelete.Behind walk.files.view n tuple → tuple.fd ∉ walk.dispatched
  pending : ∀ fd, walk.Pending start fd → ∃ tuple, SwapDelete.Behind walk.files.view n tuple ∧ tuple.fd = fd ∧ tuple.Wanted
  once : walk.dispatched.Nodup

section Steps

variable {start : List Int} {n : Nat} {walk : FileWalk}

@[simp] theorem dispatched_note (happening : FileHappening) (files : Descriptors) :
    (walk.note happening files).dispatched = walk.dispatched ++ happening.dispatched?.toList := by
  rw [dispatched,note,List.filterMap_append,dispatched]
  cases happening <;> rfl

@[simp] theorem unregistered_note (happening : FileHappening) (files : Descriptors) :
    (walk.note happening files).unregistered = walk.unregistered ++ happening.unregistered?.toList := by
  rw [unregistered,note,List.filterMap_append,unregistered]
  cases happening <;> rfl

/-- What a call can do. -/
inductive Called (walk : FileWalk) : FileCall → Except Stop FileWalk → Prop
  | twice {eventType : Nat} {fd : Int} {handle : Nat} {alloc allocVector : Bool} (registered : fd ∈ walk.files.fds) :
    Called walk (.register eventType fd handle alloc allocVector) (.error .assertion)
  | registered {eventType : Nat} {fd : Int} {handle : Nat} {alloc allocVector : Bool} {files : Descriptors} (kept : files.Files)
    (view : files.view = walk.files.view ++ [⟨fd,handle,handle,eventType,.file⟩]) :
    Called walk (.register eventType fd handle alloc allocVector) (.ok (walk.note (.registered fd) files))
  | refused {eventType : Nat} {fd : Int} {handle : Nat} {alloc allocVector : Bool} {files : Descriptors} (kept : files.Files)
    (view : files.view = walk.files.view) :
    Called walk (.register eventType fd handle alloc allocVector) (.ok {walk with files := files})
  | unregistered {fd : Int} {p : Nat} {files : Descriptors} (found : walk.files.fds.idxOf? fd = some p) (kept : files.Files)
    (view : files.view = SwapDelete.delete walk.files.view p) :
    Called walk (.unregister fd) (.ok (walk.note (.unregistered fd) files))
  | absent {fd : Int} : Called walk (.unregister fd) (.ok walk)

theorem called (files : walk.files.Files) (call : FileCall) : Called walk call (walk.call call) := by
  cases call with
  | register eventType fd handle alloc allocVector =>
    rw [FileWalk.call,Descriptors.registerFileFd]
    by_cases registered : fd ∈ walk.files.fds
    · rw [files.sound.registerFd_registered registered]
      exact .twice registered
    · obtain ⟨answer,files',done,sound,view⟩ := files.sound.registerFd registered eventType .file handle handle alloc allocVector
      rw [done]
      cases answer with
      | false => exact .refused ⟨sound,by rw [view]; exact files.file⟩ view
      | true =>
        refine .registered ⟨sound,fun tuple member => ?_⟩ view
        rw [view,if_pos rfl,List.mem_append,List.mem_singleton] at member
        obtain old | rfl := member
        · exact files.file tuple old
        · rfl
  | unregister fd =>
    rw [FileWalk.call]
    cases found : walk.files.fds.idxOf? fd with
    | none =>
      rw [files.sound.unregisterFd_absent (List.idxOf?_eq_none_iff.mp found)]
      exact .absent
    | some p =>
      obtain ⟨files',done,sound,view⟩ := files.sound.unregisterFd found
      obtain ⟨tuple,here,_⟩ := Descriptors.found_fds found
      have inside : p < walk.files.view.length := (List.getElem?_eq_some_iff.mp here).1
      rw [done]
      refine .unregistered found ⟨sound,fun tuple member => ?_⟩ view
      rw [view] at member
      exact files.file tuple ((SwapDelete.delete_perm inside).mem_iff.mp (List.mem_cons_of_mem _ member))

/-- What a call that spares the pending descriptors keeps. -/
theorem Covers.call (covers : Covers start (walk.index + 1) walk) {call : FileCall} (spares : walk.Spares start call) :
    ∃ walk', walk.call call = .ok walk' ∧ walk'.index = walk.index ∧ Covers start (walk'.index + 1) walk' := by
  have called := called covers.files call
  generalize walk.call call = result at called
  cases called with
  | twice registered => exact absurd registered spares.1
  | @registered eventType fd handle _ _ files kept view =>
    refine ⟨_,rfl,rfl,kept,?_,?_,?_⟩
    · intro tuple behind
      change SwapDelete.Behind files.view (walk.index + 1) tuple at behind
      rw [view,SwapDelete.behind_concat] at behind
      obtain old | ⟨later,rfl⟩ := behind
      · simpa [FileHappening.dispatched?] using covers.apart tuple old
      · rw [dispatched_note]
        simpa [FileHappening.dispatched?] using spares.2 (by rw [Descriptors.fds,List.length_map]; exact later)
    · intro other pending
      obtain ⟨tuple,behind,own,wanted⟩ := covers.pending other
        (by simpa [Pending,FileHappening.dispatched?,FileHappening.unregistered?] using pending)
      refine ⟨tuple,?_,own,wanted⟩
      change SwapDelete.Behind files.view (walk.index + 1) tuple
      rw [view]
      exact SwapDelete.behind_concat.mpr (.inl behind)
    · simpa [FileHappening.dispatched?] using covers.once
  | refused kept view =>
    refine ⟨_,rfl,rfl,kept,?_,?_,covers.once⟩ <;> simp only [view]
    · exact covers.apart
    · exact covers.pending
  | @unregistered fd p files found kept view =>
    obtain ⟨gone,here,rfl⟩ := Descriptors.found_fds found
    obtain ⟨inside,same⟩ := List.getElem?_eq_some_iff.mp here
    refine ⟨_,rfl,rfl,kept,?_,?_,?_⟩
    · intro tuple behind
      change SwapDelete.Behind files.view (walk.index + 1) tuple at behind
      rw [view] at behind
      simpa [FileHappening.dispatched?] using covers.apart tuple (behind.of_delete inside)
    · intro other pending
      simp only [Pending,dispatched_note,unregistered_note,FileHappening.dispatched?,FileHappening.unregistered?,Option.toList_none,
        Option.toList_some,List.append_nil,List.mem_append,List.mem_singleton,not_or] at pending
      obtain ⟨began,⟨kept,differs⟩,waits⟩ := pending
      obtain ⟨tuple,behind,own,wanted⟩ := covers.pending other ⟨began,kept,waits⟩
      refine ⟨tuple,?_,own,wanted⟩
      change SwapDelete.Behind files.view (walk.index + 1) tuple
      rw [view]
      refine behind.delete inside ?_ ?_
      · rintro rfl
        exact differs (own.symm.trans (congrArg FdTuple.fd same))
      · intro before last
        obtain ⟨j,above,place⟩ := behind
        have bound := (List.getElem?_eq_some_iff.mp place).1
        refine spares p found (by omega) (by rw [Descriptors.fds,List.length_map]; omega) other ?_ ⟨began,kept,waits⟩
        rw [Descriptors.fds,List.getLast?_map,last,← own]
        rfl
    · simpa [FileHappening.dispatched?] using covers.once
  | absent => exact ⟨_,rfl,rfl,covers⟩

theorem Covers.executeHandle {calls : List FileCall} (covers : Covers start (walk.index + 1) walk)
    (spares : Runs.Each act (Spares start) walk calls) :
    ∃ walk', walk.executeHandle calls = .ok walk' ∧ walk'.index = walk.index ∧ Covers start (walk'.index + 1) walk' := by
  induction calls generalizing walk with
  | nil => exact ⟨walk,rfl,rfl,covers⟩
  | cons call calls ih =>
    obtain ⟨first,later⟩ := spares
    obtain ⟨walk₁,called,same,covers₁⟩ := covers.call first
    obtain ⟨walk₂,executed,same₂,covers₂⟩ := ih covers₁ (later walk₁ (by rw [act,called]; rfl))
    refine ⟨walk₂,?_,same₂.trans same,covers₂⟩
    rw [FileWalk.executeHandle,called]
    exact executed

/-- The handler of the tuple at the index, with the tuple dispatched. -/
def entered (walk : FileWalk) (tuple : FdTuple) : FileWalk :=
  {walk.note (.dispatched tuple.fd tuple.handle) walk.files with wasThereAnEvent := true}

theorem enter_eq (files : walk.files.Files) {tuple : FdTuple} (here : walk.files.view[walk.index]? = some tuple) :
    walk.enter = .ok (if tuple.Wanted then (true,walk.entered tuple) else (false,walk)) := by
  obtain ⟨address,_,_,read⟩ := files.sound.tupleAt here
  have file := files.file tuple (List.mem_of_getElem? here)
  obtain ⟨files',done,_,_,same⟩ := files.sound.updateEventOnFd here
  obtain rfl := same file
  have updated : walk.updateEventOnFile tuple.fd = .ok (true,walk.entered tuple) := by
    simp only [updateEventOnFile,done,entered]
  simp only [enter,read,file,updated,FdTuple.Wanted,ne_eq,not_true_eq_false,if_false]
  by_cases read : 0 < tuple.eventType &&& wantRead
  · simp only [read,true_or,if_true]
  by_cases write : 0 < tuple.eventType &&& wantWrite
  · simp only [read,write,true_or,or_true,if_true,if_false]
  by_cases error : 0 < tuple.eventType &&& eventError
  · simp only [read,write,error,or_true,if_true,if_false]
  · simp only [read,write,error,or_false,if_false]

theorem here_of_index (files : walk.files.Files) (running : walk.index < walk.files.container.elemNo) :
    ∃ tuple, walk.files.view[walk.index]? = some tuple :=
  ⟨_,List.getElem?_eq_getElem (by have := files.sound.elemNo; omega)⟩

theorem Covers.entered {tuple : FdTuple} (covers : Covers start walk.index walk)
    (here : walk.files.view[walk.index]? = some tuple) : Covers start (walk.index + 1) (walk.entered tuple) := by
  have dispatched' : (walk.entered tuple).dispatched = walk.dispatched ++ [tuple.fd] :=
    dispatched_note (.dispatched tuple.fd tuple.handle) walk.files
  have unregistered' : (walk.entered tuple).unregistered = walk.unregistered :=
    (unregistered_note (.dispatched tuple.fd tuple.handle) walk.files).trans (List.append_nil _)
  refine ⟨covers.files,?_,?_,?_⟩
  · rintro other ⟨j,above,place⟩
    rw [dispatched',List.mem_append,List.mem_singleton,not_or]
    refine ⟨covers.apart other ⟨j,by omega,place⟩,fun same => ?_⟩
    have twice := covers.files.sound.idxOf?_fds place
    rw [same,covers.files.sound.idxOf?_fds here,Option.some.injEq] at twice
    omega
  · rintro fd ⟨began,kept,waits⟩
    rw [dispatched',List.mem_append,List.mem_singleton,not_or] at waits
    rw [unregistered'] at kept
    obtain ⟨other,behind,own,wanted⟩ := covers.pending fd ⟨began,kept,waits.1⟩
    obtain rfl | behind := (SwapDelete.behind_succ here).mp behind
    · exact absurd own.symm waits.2
    · exact ⟨other,behind,own,wanted⟩
  · rw [dispatched',(List.perm_append_singleton _ _).nodup_iff]
    exact List.nodup_cons.mpr ⟨covers.apart tuple ⟨walk.index,le_rfl,here⟩,covers.once⟩

theorem Covers.passed {tuple : FdTuple} (covers : Covers start walk.index walk)
    (here : walk.files.view[walk.index]? = some tuple) (unwanted : ¬ tuple.Wanted) : Covers start (walk.index + 1) walk := by
  refine ⟨covers.files,?_,?_,covers.once⟩
  · exact fun other behind => covers.apart other ((SwapDelete.behind_succ here).mpr (.inr behind))
  · intro fd pending
    obtain ⟨other,behind,own,wanted⟩ := covers.pending fd pending
    obtain rfl | behind := (SwapDelete.behind_succ here).mp behind
    · exact absurd wanted unwanted
    · exact ⟨other,behind,own,wanted⟩

/-- One turn of the loop. -/
theorem Covers.iterate {calls : List FileCall} (covers : Covers start walk.index walk)
    (running : walk.index < walk.files.container.elemNo) (spares : walk.SparesTurn start calls) :
    ∃ walk', walk.iterate calls = .ok walk' ∧ walk'.index = walk.index + 1 ∧ Covers start walk'.index walk' := by
  obtain ⟨tuple,here⟩ := here_of_index covers.files running
  have enters := enter_eq covers.files here
  rw [FileWalk.iterate,enters]
  by_cases wanted : tuple.Wanted
  · rw [if_pos wanted] at enters ⊢
    obtain ⟨walk',executed,same,covers'⟩ := (covers.entered here).executeHandle (spares running _ enters)
    simp only [executed]
    have index : walk'.index = walk.index := same
    exact ⟨walk'.advance,rfl,by rw [advance,index],⟨covers'.files,covers'.apart,covers'.pending,covers'.once⟩⟩
  · rw [if_neg wanted]
    have covers' := covers.passed here wanted
    exact ⟨walk.advance,rfl,rfl,⟨covers'.files,covers'.apart,covers'.pending,covers'.once⟩⟩

theorem Covers.complete (covers : Covers start walk.index walk) (ended : ¬ walk.index < walk.files.container.elemNo) :
    walk.Complete start := by
  refine ⟨fun fd began kept => ?_,covers.once⟩
  by_contra waits
  obtain ⟨tuple,behind,_⟩ := covers.pending fd ⟨began,kept,waits⟩
  exact SwapDelete.not_behind_length (by have := covers.files.sound.elemNo; omega) behind

/-- At the end nothing is pending. A vector holds no more elements than there are turns. -/
theorem Covers.loop {behaviours : List (List FileCall)} (covers : Covers start walk.index walk)
    (spares : Runs.Each turn (SparesTurn start) walk behaviours) :
    Served start (walk.index + behaviours.length) (walk.loop behaviours) := by
  induction behaviours generalizing walk with
  | nil =>
    rw [FileWalk.loop]
    split_ifs with running
    · have := covers.files.sound.container.within
      have := covers.files.sound.container.byte
      exact ⟨rfl,by rw [List.length_nil]; omega⟩
    · exact covers.complete running
  | cons calls behaviours ih =>
    rw [FileWalk.loop]
    split_ifs with running
    · obtain ⟨walk',iterated,index,covers'⟩ := covers.iterate running spares.1
      simp only [iterated]
      have rest := ih covers' (spares.2 walk' (by rw [turn,if_pos running,iterated]; rfl))
      rwa [index,Nat.add_assoc,Nat.add_comm 1] at rest
    · exact covers.complete running

/-- What ends a run whatever the handlers do. -/
def Safe : Except Stop FileWalk → Prop
  | .ok walk => walk.files.Files
  | .error stop => stop = .assertion ∨ stop = .starved

theorem safe_call (files : walk.files.Files) (call : FileCall) : Safe (walk.call call) := by
  have called := called files call
  generalize walk.call call = result at called ⊢
  cases called with
  | twice registered => exact .inl rfl
  | registered kept view => exact kept
  | refused kept view => exact kept
  | unregistered found kept view => exact kept
  | absent => exact files

theorem Safe.bind {result : Except Stop FileWalk} {next : FileWalk → Except Stop FileWalk} (safe : Safe result)
    (kept : ∀ walk, walk.files.Files → Safe (next walk)) :
    Safe (match result with
      | .error stop => .error stop
      | .ok walk => next walk) := by
  cases result with
  | error stop => exact safe
  | ok walk => exact kept walk safe

theorem safe_executeHandle (files : walk.files.Files) (calls : List FileCall) : Safe (walk.executeHandle calls) := by
  induction calls generalizing walk with
  | nil => exact files
  | cons call calls ih =>
    rw [executeHandle]
    exact (safe_call files call).bind fun walk' files' => ih files'

theorem safe_iterate (files : walk.files.Files) (running : walk.index < walk.files.container.elemNo) (calls : List FileCall) :
    Safe (walk.iterate calls) := by
  obtain ⟨tuple,here⟩ := here_of_index files running
  rw [iterate,enter_eq files here]
  split_ifs
  · have files' : (walk.entered tuple).files.Files := files
    exact (safe_executeHandle files' calls).bind fun left files'' => files''
  · exact files

theorem safe_loop (files : walk.files.Files) (behaviours : List (List FileCall)) : Safe (walk.loop behaviours) := by
  induction behaviours generalizing walk with
  | nil =>
    rw [loop]
    split_ifs
    · exact .inr rfl
    · exact files
  | cons calls behaviours ih =>
    rw [loop]
    split_ifs with running
    · exact (safe_iterate files running calls).bind fun walk' files' => ih files'
    · exact files

end Steps

end FileWalk

open FileWalk

/-- No freed tuple is touched, and where every turn spares the pending descriptors each of those that want to be is dispatched,
none twice. -/
theorem each_file_dispatched (files : Descriptors) (kept : files.Files) (behaviours : List (List FileCall)) :
    Safe (updateFileFdEvents files behaviours) ∧
      ((∀ tuple ∈ files.view, tuple.Wanted) → Runs.Each turn (SparesTurn files.fds) {files := files} behaviours →
        Served files.fds behaviours.length (updateFileFdEvents files behaviours)) := by
  refine ⟨safe_loop kept behaviours,fun wanted spares => ?_⟩
  have covers : Covers files.fds 0 {files := files} := by
    refine ⟨kept,fun _ _ => List.not_mem_nil,?_,List.nodup_nil⟩
    rintro fd ⟨began,_⟩
    obtain ⟨tuple,member,own⟩ := List.mem_map.mp began
    exact ⟨tuple,SwapDelete.behind_zero.mpr member,own,wanted tuple member⟩
  rw [← Nat.zero_add behaviours.length]
  exact Covers.loop covers spares

/-- Three file descriptors that want to be read. -/
def threeFiles : Descriptors where
  container := {array := [0,1,2,0],elemNo := 3,capacity := 4,memoryType := .managed}
  tuple := fun address => if address < 3 then some ⟨address,address,address,wantRead,.file⟩ else none
  next := 3

theorem threeFiles_files : threeFiles.Files :=
  ⟨⟨⟨by decide,by decide,by decide,by decide,by decide⟩,rfl,by decide,by decide,by decide⟩,by decide⟩

/-- The last of them unregisters itself in its turn. -/
theorem each_file_dispatched_three : ∃ walk, updateFileFdEvents threeFiles [[],[],[.unregister 2]] = .ok walk ∧
    walk.Complete threeFiles.fds := by
  have served := (each_file_dispatched threeFiles threeFiles_files [[],[],[.unregister 2]]).2 (by decide) ?_
  · exact ⟨_,rfl,served⟩
  · refine ⟨fun _ _ _ => trivial,fun first stepped => ⟨fun _ _ _ => trivial,fun second stepped' => ⟨?_,fun _ _ => trivial⟩⟩⟩
    obtain rfl := Option.some.inj stepped
    obtain rfl := Option.some.inj stepped'
    intro _ entered enters
    obtain rfl := (Prod.mk.inj (Except.ok.inj enters)).2
    exact ⟨fun p _ _ short => absurd short (by decide),fun _ _ => trivial⟩

/-- The handler of the first unregisters it, so the third takes its place behind the loop and waits. -/
theorem updateFileFdEvents_skips : threeFiles.Files ∧ (∀ tuple ∈ threeFiles.view, tuple.Wanted) ∧
    ∃ walk, updateFileFdEvents threeFiles [[.unregister 0],[],[]] = .ok walk ∧
      2 ∈ threeFiles.fds ∧ 2 ∈ walk.files.fds ∧ 2 ∉ walk.unregistered ∧ 2 ∉ walk.dispatched :=
  ⟨threeFiles_files,by decide,_,rfl,by decide,by decide,by decide,by decide⟩

end XivelyClient.EventDispatcher
