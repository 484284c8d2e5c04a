import XivelyClient.EventDispatcher.Descriptors
import XivelyClient.Lib.Runs

/-! The sockets in the event loop (`xi_event_loop.c`). One pass over the vectors of all dispatchers fills the array for `select`,
another one goes through the array and the vectors side by side, while the handlers that it runs change the vectors. -/
namespace XivelyClient.EventLoop
open EventDispatcher

/-- What `select` says of a socket. -/
structure Readiness where
  canRead : Bool := false
  canWrite : Bool := false
  error : Bool := false
  connectFinished : Bool := false
  deriving DecidableEq, Repr

/-- `xi_bsp_socket_events_t` -/
structure SocketEvents where
  xiSocket : Int := 0
  inWantRead : Bool := false
  inWantWrite : Bool := false
  inWantError : Bool := false
  inWantConnect : Bool := false
  out : Readiness := {}
  deriving DecidableEq, Repr

def SocketEvents.ready (entry : SocketEvents) : Bool :=
  entry.out.canRead || entry.out.canWrite || entry.out.connectFinished || entry.out.error

def SocketEvents.ofTuple (tuple : FdTuple) : SocketEvents where
  xiSocket := tuple.fd
  inWantRead := 0 < tuple.eventType &&& wantRead
  inWantWrite := 0 < tuple.eventType &&& wantWrite
  inWantError := 0 < tuple.eventType &&& eventError
  inWantConnect := 0 < tuple.eventType &&& wantConnect

/-- `xi_bsp_event_loop_count_all_sockets` -/
def countAllSockets (dispatchers : List Descriptors) : Nat :=
  (dispatchers.map fun sockets => sockets.container.elemNo.toNat).sum

/-- The entries for the elements of a vector. -/
def fillFrom (tuple : Nat → Option FdTuple) : List Nat → Except Stop (List SocketEvents)
  | [] => .ok []
  | address :: rest =>
    match tuple address with
    | none => .error .freedTuple
    | some found => (fillFrom tuple rest).map (SocketEvents.ofTuple found :: ·)

def fillAll : List Descriptors → Except Stop (List SocketEvents)
  | [] => .ok []
  | sockets :: rest =>
    match fillFrom sockets.tuple sockets.container.contents with
    | .error stop => .error stop
    | .ok entries => (fillAll rest).map (entries ++ ·)

/-- The sockets of `xi_bsp_event_loop_transform_to_bsp_select`, which fills an array of zeros. -/
def transformToBspSelect (dispatchers : List Descriptors) : Except Stop (List SocketEvents) :=
  match fillAll dispatchers with
  | .error stop => .error stop
  | .ok entries =>
    if entries.length ≤ countAllSockets dispatchers then
      .ok (entries ++ List.replicate (countAllSockets dispatchers - entries.length) {})
    else .error .assertion

/-- `xi_bsp_io_net_select` writes what it finds to each entry. -/
def select (answers : Nat → Readiness) (array : List SocketEvents) : List SocketEvents :=
  array.mapIdx fun socketId entry => {entry with out := answers socketId}

/-- What a handler does with the sockets of a dispatcher. -/
inductive SocketOperation
  | register (fd : Int) (readHandle : Nat) (alloc allocVector : Bool)
  | unregister (fd : Int)
  | continueWhen (eventType handle : Nat) (fd : Int)
  deriving DecidableEq, Repr

structure SocketCall where
  evtd : Nat
  operation : SocketOperation
  deriving DecidableEq, Repr

inductive SocketHappening
  | dispatched (evtd : Nat) (fd : Int) (handle : Nat)
  | unregistered (evtd : Nat) (fd : Int)
  deriving DecidableEq, Repr

def SocketHappening.dispatched? : SocketHappening → Option (Nat × Int)
  | .dispatched evtd fd _ => some (evtd,fd)
  | _ => none

def SocketHappening.unregistered? : SocketHappening → Option (Nat × Int)
  | .unregistered evtd fd => some (evtd,fd)
  | _ => none

def SocketOperation.perform (sockets : Descriptors) : SocketOperation → Except Stop (Bool × Descriptors)
  | .register fd readHandle alloc allocVector => sockets.registerSocketFd fd readHandle alloc allocVector
  | .unregister fd => sockets.unregisterFd fd
  | .continueWhen eventType handle fd => sockets.continueWhenEvtOnSocket eventType handle fd

def SocketCall.happening (asked : SocketCall) : Option SocketHappening :=
  match asked.operation with
  | .unregister fd => some (.unregistered asked.evtd fd)
  | _ => none

/-- The two loops of `xi_bsp_event_loop_update_event_dispatcher`, at the element `index` of the dispatcher `evtd`. -/
structure SocketWalk where
  dispatchers : List Descriptors
  evtd : Nat := 0
  index : Nat := 0
  socketId : Nat := 0
  log : List SocketHappening := []

namespace SocketWalk

def dispatched (walk : SocketWalk) : List (Nat × Int) := walk.log.filterMap SocketHappening.dispatched?

def unregistered (walk : SocketWalk) : List (Nat × Int) := walk.log.filterMap SocketHappening.unregistered?

/-- A dispatcher that is not one of the loop does not concern it. -/
def call (walk : SocketWalk) (asked : SocketCall) : Except Stop SocketWalk :=
  match walk.dispatchers[asked.evtd]? with
  | none => .ok walk
  | some sockets =>
    match asked.operation.perform sockets with
    | .error stop => .error stop
    | .ok (answer,sockets) => .ok {walk with
        dispatchers := walk.dispatchers.set asked.evtd sockets
        log := walk.log ++ if answer then asked.happening.toList else []}

def executeHandle : SocketWalk → List SocketCall → Except Stop SocketWalk
  | walk,[] => .ok walk
  | walk,asked :: calls =>
    match walk.call asked with
    | .error stop => .error stop
    | .ok walk => walk.executeHandle calls

/-- The heads of the loops: on to the next dispatcher while there is no element at the index. -/
def seekFrom : List Descriptors → SocketWalk → SocketWalk
  | [],walk => walk
  | sockets :: rest,walk =>
    if walk.index < sockets.container.elemNo then walk else seekFrom rest {walk with evtd := walk.evtd + 1,index := 0}

def seek (walk : SocketWalk) : SocketWalk := seekFrom (walk.dispatchers.drop walk.evtd) walk

/-- `xi_evtd_update_event_on_socket` up to the handler. -/
def updateEventOnSocket (walk : SocketWalk) (sockets : Descriptors) (fd : Int) : Except Stop (Bool × SocketWalk) :=
  match sockets.updateEventOnFd fd with
  | .error stop => .error stop
  | .ok none => .error (.returned .fdHandlerNotFound)
  | .ok (some (handle,sockets)) => .ok (true,{walk with
      dispatchers := walk.dispatchers.set walk.evtd sockets
      log := walk.log ++ [.dispatched walk.evtd fd handle]})

/-- The body of the loops up to the handler, and whether there is one to execute. -/
def enter (array : List SocketEvents) (walk : SocketWalk) (sockets : Descriptors) : Except Stop (Bool × SocketWalk) :=
  match sockets.tupleAt walk.index with
  | .error stop => .error stop
  | .ok (_,tuple) =>
    match array[walk.socketId]? with
    | none => .error .assertion
    | some entry =>
      if tuple.fd ≠ entry.xiSocket then .error .assertion
      else if entry.ready then walk.updateEventOnSocket sockets entry.xiSocket
      else .ok (false,walk)

def advance (walk : SocketWalk) : SocketWalk := {walk with index := walk.index + 1,socketId := walk.socketId + 1}

def iterate (array : List SocketEvents) (walk : SocketWalk) (sockets : Descriptors) (calls : List SocketCall) :
    Except Stop SocketWalk :=
  match walk.enter array sockets with
  | .error stop => .error stop
  | .ok (false,entered) => .ok entered.advance
  | .ok (true,entered) =>
    match entered.executeHandle calls with
    | .error stop => .error stop
    | .ok left => .ok left.advance

/-- One turn of the inner loop, from one element to behind it. -/
def turn (array : List SocketEvents) (walk : SocketWalk) (calls : List SocketCall) : Option SocketWalk :=
  walk.dispatchers[walk.seek.evtd]?.bind fun sockets => (walk.seek.iterate array sockets calls).toOption

/-- Each turn of the inner loop takes the next of the behaviours. -/
def loop (array : List SocketEvents) : SocketWalk → List (List SocketCall) → Except Stop SocketWalk
  | walk,behaviours =>
    match walk.dispatchers[walk.seek.evtd]? with
    | none => .ok walk.seek
    | some sockets =>
      match behaviours with
      | [] => .error .starved
      | calls :: behaviours =>
        match walk.seek.iterate array sockets calls with
        | .error stop => .error stop
        | .ok walk => walk.loop array behaviours

end SocketWalk

/-- `xi_bsp_event_loop_update_event_dispatcher` -/
def updateEventDispatcher (array : List SocketEvents) (dispatchers : List Descriptors) (behaviours : List (List SocketCall)) :
    Except Stop SocketWalk :=
  SocketWalk.loop array {dispatchers := dispatchers} behaviours

/-- The descriptors of the dispatchers from `evtd` on, each with its dispatcher. -/
def keysFrom : Nat → List (List Int) → List (Nat × Int)
  | _,[] => []
  | evtd,fds :: rest => fds.map (evtd,·) ++ keysFrom (evtd + 1) rest

def keys (dispatchers : List Descriptors) : List (Nat × Int) := keysFrom 0 (dispatchers.map Descriptors.fds)

/-- The descriptors whose entry is ready. -/
def readyKeys (array : List SocketEvents) (keys : List (Nat × Int)) : List (Nat × Int) :=
  ((array.zip keys).filter fun pair => pair.1.ready).map Prod.snd

namespace SocketWalk

section Properties

variable (array : List SocketEvents) (walk : SocketWalk)

/-- What stands at the places from `index` of the dispatcher on. -/
def ahead (index : Nat) : List (Nat × Int) :=
  match (walk.dispatchers.map Descriptors.fds).drop walk.evtd with
  | [] => []
  | fds :: later => (fds.drop index).map (walk.evtd,·) ++ keysFrom (walk.evtd + 1) later

/-- The handler that this turn executes leaves the order of what is ahead of it, and what is not ahead any more it has
unregistered. -/
def SparesTurn (calls : List SocketCall) : Prop :=
  ∀ sockets entered, walk.dispatchers[walk.seek.evtd]? = some sockets → walk.seek.enter array sockets = .ok (true,entered) →
    ∃ left, entered.executeHandle calls = .ok left ∧ left.ahead (left.index + 1) <+: entered.ahead (entered.index + 1) ∧
      ∀ key ∈ entered.ahead (entered.index + 1), key ∈ left.ahead (left.index + 1) ∨ key ∈ left.unregistered

/-- The entry of the array is that of the tuple, whose handler is executed exactly if the entry is ready. -/
def Matched : Prop :=
  ∀ sockets, walk.dispatchers[walk.seek.evtd]? = some sockets →
    ∃ tuple entry, sockets.view[walk.seek.index]? = some tuple ∧ array[walk.seek.socketId]? = some entry ∧
      entry.xiSocket = tuple.fd ∧ ∃ entered, walk.seek.enter array sockets = .ok (entry.ready,entered) ∧
        entered.log = walk.log ++ if entry.ready then [.dispatched walk.seek.evtd tuple.fd tuple.handle] else []

/-- Every ready socket was dispatched or unregistered before, none twice and no other one. -/
structure Complete (keys : List (Nat × Int)) : Prop where
  served : ∀ key ∈ readyKeys array keys, key ∈ walk.dispatched ∨ key ∈ walk.unregistered
  once : walk.dispatched.Nodup
  ready : ∀ key ∈ walk.dispatched, key ∈ readyKeys array keys

def Served (array : List SocketEvents) (keys : List (Nat × Int)) (turns : Nat) : Except Stop SocketWalk → Prop
  | .ok walk => walk.Complete array keys
  | .error stop => stop = .starved ∧ turns < array.length

end Properties

section Places

variable {walk : SocketWalk} {sockets : Descriptors}

theorem ahead_here (here : walk.dispatchers[walk.evtd]? = some sockets) (index : Nat) :
    walk.ahead index = (sockets.fds.drop index).map (walk.evtd,·) ++
      keysFrom (walk.evtd + 1) ((walk.dispatchers.map Descriptors.fds).drop (walk.evtd + 1)) := by
  obtain ⟨inside,rfl⟩ := List.getElem?_eq_some_iff.mp here
  rw [ahead,List.drop_eq_getElem_cons (by rwa [List.length_map]),List.getElem_map]

theorem ahead_end (ended : walk.dispatchers[walk.evtd]? = none) (index : Nat) : walk.ahead index = [] := by
  rw [ahead,List.drop_eq_nil_of_le (by rw [List.length_map]; exact List.getElem?_eq_none_iff.mp ended)]

theorem ahead_zero : walk.ahead 0 = keysFrom walk.evtd ((walk.dispatchers.map Descriptors.fds).drop walk.evtd) := by
  rw [ahead]
  cases (walk.dispatchers.map Descriptors.fds).drop walk.evtd <;> rfl

/-- The descriptor at the place comes first. -/
theorem ahead_cons (here : walk.dispatchers[walk.evtd]? = some sockets) {index : Nat} {tuple : FdTuple}
    (found : sockets.view[index]? = some tuple) : walk.ahead index = (walk.evtd,tuple.fd) :: walk.ahead (index + 1) := by
  obtain ⟨inside,rfl⟩ := List.getElem?_eq_some_iff.mp found
  have inside' : index < sockets.fds.length := by rwa [Descriptors.fds,List.length_map]
  have own : sockets.fds[index] = sockets.view[index].fd := List.getElem_map FdTuple.fd
  rw [ahead_here here,ahead_here here,List.drop_eq_getElem_cons inside',List.map_cons,own,List.cons_append]

/-- The heads of the loops change the place only, to one with an element or behind all. -/
structure Sought (walk found : SocketWalk) : Prop where
  dispatchers : found.dispatchers = walk.dispatchers
  socketId : found.socketId = walk.socketId
  log : found.log = walk.log
  ahead : found.ahead found.index = walk.ahead walk.index
  running : ∀ sockets, found.dispatchers[found.evtd]? = some sockets → found.index < sockets.container.elemNo

theorem seekFrom_sought (sound : ∀ sockets ∈ walk.dispatchers, sockets.Sound) (rest : List Descriptors)
    (left : walk.dispatchers.drop walk.evtd = rest) : Sought walk (seekFrom rest walk) := by
  induction rest generalizing walk with
  | nil =>
    refine ⟨rfl,rfl,rfl,rfl,fun sockets here => ?_⟩
    rw [seekFrom,List.getElem?_eq_none (List.drop_eq_nil_iff.mp left)] at here
    cases here
  | cons first rest ih =>
    have here : walk.dispatchers[walk.evtd]? = some first := by
      rw [← List.head?_drop,left,List.head?_cons]
    rw [seekFrom]
    split_ifs with running
    · refine ⟨rfl,rfl,rfl,rfl,fun sockets here' => ?_⟩
      rw [here] at here'
      obtain rfl := Option.some.inj here'
      exact running
    · have sought := @ih {walk with evtd := walk.evtd + 1,index := 0} sound (by
        change walk.dispatchers.drop (walk.evtd + 1) = rest
        rw [← List.tail_drop,left,List.tail_cons])
      refine ⟨sought.dispatchers,sought.socketId,sought.log,?_,sought.running⟩
      have elemNo := (sound first (List.mem_of_getElem? here)).elemNo
      have short : first.fds.length ≤ walk.index := by
        rw [Descriptors.fds,List.length_map]
        omega
      rw [sought.ahead,ahead_zero,ahead_here here,List.drop_eq_nil_of_le short,List.map_nil,List.nil_append]

theorem seek_sought (sound : ∀ sockets ∈ walk.dispatchers, sockets.Sound) : Sought walk walk.seek :=
  seekFrom_sought sound _ rfl

end Places

section Handlers

variable {walk walk' : SocketWalk}

theorem sound_set {dispatchers : List Descriptors} {sockets : Descriptors} (sound : ∀ other ∈ dispatchers, other.Sound) (evtd : Nat)
    (sound' : sockets.Sound) : ∀ other ∈ dispatchers.set evtd sockets, other.Sound := by
  intro other member
  obtain old | rfl := List.mem_or_eq_of_mem_set member
  · exact sound other old
  · exact sound'

theorem sound_perform {sockets sockets' : Descriptors} {operation : SocketOperation} {answer : Bool} (sound : sockets.Sound)
    (performed : operation.perform sockets = .ok (answer,sockets')) : sockets'.Sound := by
  cases operation with
  | register fd readHandle alloc allocVector =>
    rw [SocketOperation.perform,Descriptors.registerSocketFd] at performed
    by_cases registered : fd ∈ sockets.fds
    · rw [sound.registerFd_registered registered] at performed
      cases performed
    · obtain ⟨_,_,done,sound',_⟩ := sound.registerFd registered wantRead .socket readHandle readHandle alloc allocVector
      obtain ⟨_,rfl⟩ := Prod.mk.inj (Except.ok.inj (done.symm.trans performed))
      exact sound'
  | unregister fd =>
    rw [SocketOperation.perform] at performed
    cases found : sockets.fds.idxOf? fd with
    | none =>
      rw [sound.unregisterFd_absent (List.idxOf?_eq_none_iff.mp found)] at performed
      obtain ⟨_,rfl⟩ := Prod.mk.inj (Except.ok.inj performed)
      exact sound
    | some p =>
      obtain ⟨_,done,sound',_⟩ := sound.unregisterFd found
      obtain ⟨_,rfl⟩ := Prod.mk.inj (Except.ok.inj (done.symm.trans performed))
      exact sound'
  | continueWhen eventType handle fd =>
    rw [SocketOperation.perform,Descriptors.continueWhenEvtOnSocket,sound.find] at performed
    cases found : sockets.fds.idxOf? fd with
    | none =>
      rw [found] at performed
      obtain ⟨_,rfl⟩ := Prod.mk.inj (Except.ok.inj performed)
      exact sound
    | some p =>
      obtain ⟨tuple,here,_⟩ := Descriptors.found_fds found
      obtain ⟨address,place,_,read⟩ := sound.tupleAt here
      simp only [found,read] at performed
      split_ifs at performed
      obtain ⟨_,rfl⟩ := Prod.mk.inj (Except.ok.inj performed)
      exact (@Descriptors.Sound.update sockets sound _ _ _ {tuple with eventType := eventType,handle := handle} here place rfl).1

/-- What the calls of a handler keep. -/
structure Kept (walk walk' : SocketWalk) : Prop where
  sound : ∀ sockets ∈ walk'.dispatchers, sockets.Sound
  evtd : walk'.evtd = walk.evtd
  index : walk'.index = walk.index
  socketId : walk'.socketId = walk.socketId
  dispatched : walk'.dispatched = walk.dispatched
  unregistered : ∀ key ∈ walk.unregistered, key ∈ walk'.unregistered

theorem kept_call (sound : ∀ sockets ∈ walk.dispatchers, sockets.Sound) {asked : SocketCall} (called : walk.call asked = .ok walk') :
    Kept walk walk' := by
  rw [call] at called
  cases here : walk.dispatchers[asked.evtd]? with
  | none =>
    rw [here] at called
    obtain rfl := Except.ok.inj called
    exact ⟨sound,rfl,rfl,rfl,rfl,fun _ member => member⟩
  | some sockets =>
    simp only [here] at called
    cases performed : asked.operation.perform sockets with
    | error stop =>
      rw [performed] at called
      cases called
    | ok result =>
      obtain ⟨answer,sockets'⟩ := result
      rw [performed] at called
      obtain rfl := Except.ok.inj called
      have sound' := sound_perform (sound sockets (List.mem_of_getElem? here)) performed
      refine ⟨sound_set sound _ sound',rfl,rfl,rfl,?_,fun key member => ?_⟩
      · rw [dispatched,dispatched,List.filterMap_append]
        cases answer with
        | false => exact List.append_nil _
        | true => cases operation : asked.operation <;> simp [SocketCall.happening,operation,SocketHappening.dispatched?]
      · rw [unregistered,List.filterMap_append]
        exact List.mem_append_left _ member

theorem Kept.trans {walk'' : SocketWalk} (first : Kept walk walk') (second : Kept walk' walk'') : Kept walk walk'' :=
  ⟨second.sound,second.evtd.trans first.evtd,second.index.trans first.index,second.socketId.trans first.socketId,
    second.dispatched.trans first.dispatched,fun key member => second.unregistered key (first.unregistered key member)⟩

theorem kept_executeHandle (sound : ∀ sockets ∈ walk.dispatchers, sockets.Sound) {calls : List SocketCall}
    (executed : walk.executeHandle calls = .ok walk') : Kept walk walk' := by
  induction calls generalizing walk with
  | nil =>
    obtain rfl := Except.ok.inj executed
    exact ⟨sound,rfl,rfl,rfl,rfl,fun _ member => member⟩
  | cons asked calls ih =>
    rw [executeHandle] at executed
    cases called : walk.call asked with
    | error stop =>
      rw [called] at executed
      cases executed
    | ok next =>
      rw [called] at executed
      have kept := kept_call sound called
      exact kept.trans (ih kept.sound executed)

end Handlers

/-- What is ready among the first entries. -/
def readyUpTo (array : List SocketEvents) (keys : List (Nat × Int)) (n : Nat) : List (Nat × Int) :=
  (((array.zip keys).take n).filter fun pair => pair.1.ready).map Prod.snd

/-- The array and what is ahead in the vectors go side by side. -/
structure Lockstep (array : List SocketEvents) (keys : List (Nat × Int)) (walk : SocketWalk) : Prop where
  sound : ∀ sockets ∈ walk.dispatchers, sockets.Sound
  ahead : walk.ahead walk.index <+: keys.drop walk.socketId
  gone : ∀ key ∈ keys.drop walk.socketId, key ∈ walk.ahead walk.index ∨ key ∈ walk.unregistered
  within : walk.socketId ≤ keys.length
  dispatched : List.Sublist walk.dispatched (readyUpTo array keys walk.socketId)
  served : ∀ key ∈ readyUpTo array keys walk.socketId, key ∈ walk.dispatched ∨ key ∈ walk.unregistered

section Run

variable {array : List SocketEvents} {keys : List (Nat × Int)} {walk : SocketWalk} {sockets : Descriptors}

theorem readyUpTo_succ {n : Nat} {entry : SocketEvents} {key : Nat × Int} (found : array[n]? = some entry)
    (same : keys[n]? = some key) :
    readyUpTo array keys (n + 1) = readyUpTo array keys n ++ if entry.ready then [key] else [] := by
  have pair : (array.zip keys)[n]? = some (entry,key) := List.getElem?_zip_eq_some.mpr ⟨found,same⟩
  rw [readyUpTo,List.take_add_one,pair,Option.toList_some,List.filter_append,List.map_append,readyUpTo]
  cases ready : entry.ready <;> simp [ready]

theorem Lockstep.seek (lockstep : Lockstep array keys walk) : Lockstep array keys walk.seek := by
  obtain ⟨dispatchers,socketId,log,ahead,_⟩ := seek_sought lockstep.sound
  have dispatched' : walk.seek.dispatched = walk.dispatched := by rw [SocketWalk.dispatched,log,SocketWalk.dispatched]
  have unregistered' : walk.seek.unregistered = walk.unregistered := by rw [unregistered,log,unregistered]
  refine ⟨by rw [dispatchers]; exact lockstep.sound,?_,?_,?_,?_,?_⟩
  · rw [ahead,socketId]
    exact lockstep.ahead
  · rw [ahead,socketId,unregistered']
    exact lockstep.gone
  · rw [socketId]
    exact lockstep.within
  · rw [dispatched',socketId]
    exact lockstep.dispatched
  · rw [dispatched',unregistered',socketId]
    exact lockstep.served

/-- The body of the loops at an element. -/
structure Entered (array : List SocketEvents) (keys : List (Nat × Int)) (walk : SocketWalk) (sockets : Descriptors)
    (tuple : FdTuple) (entry : SocketEvents) (entered : SocketWalk) : Prop where
  here : sockets.view[walk.index]? = some tuple
  found : array[walk.socketId]? = some entry
  key : keys[walk.socketId]? = some (walk.evtd,tuple.fd)
  same : entry.xiSocket = tuple.fd
  enter : walk.enter array sockets = .ok (entry.ready,entered)
  evtd : entered.evtd = walk.evtd
  index : entered.index = walk.index
  socketId : entered.socketId = walk.socketId
  sound : ∀ sockets ∈ entered.dispatchers, sockets.Sound
  fds : entered.dispatchers.map Descriptors.fds = walk.dispatchers.map Descriptors.fds
  log : entered.log = walk.log ++ if entry.ready then [.dispatched walk.evtd tuple.fd tuple.handle] else []

theorem Lockstep.entered (lockstep : Lockstep array keys walk) (filled : array.map SocketEvents.xiSocket = keys.map Prod.snd)
    (here : walk.dispatchers[walk.evtd]? = some sockets) (running : walk.index < sockets.container.elemNo) :
    ∃ tuple entry entered, Entered array keys walk sockets tuple entry entered := by
  have sound := lockstep.sound sockets (List.mem_of_getElem? here)
  obtain ⟨tuple,found⟩ : ∃ tuple, sockets.view[walk.index]? = some tuple :=
    ⟨_,List.getElem?_eq_getElem (by have := sound.elemNo; omega)⟩
  obtain ⟨_,_,_,read⟩ := sound.tupleAt found
  have first : keys[walk.socketId]? = some (walk.evtd,tuple.fd) := by
    have heads := lockstep.ahead
    rw [ahead_cons here found] at heads
    obtain ⟨tail,append⟩ := heads
    rw [← List.head?_drop,← append,List.cons_append,List.head?_cons]
  have both := congrArg (·[walk.socketId]?) filled
  simp only [List.getElem?_map,first,Option.map_some] at both
  obtain ⟨entry,place,same⟩ := Option.map_eq_some_iff.mp both
  have enters : walk.enter array sockets = if entry.ready then walk.updateEventOnSocket sockets tuple.fd else .ok (false,walk) := by
    simp only [enter,read,place,same,ne_eq,not_true_eq_false,if_false]
  cases ready : entry.ready with
  | false =>
    refine ⟨tuple,entry,walk,found,place,first,same,?_,rfl,rfl,rfl,lockstep.sound,rfl,?_⟩
    · rw [enters,ready]
      rfl
    · rw [ready]
      exact (List.append_nil _).symm
  | true =>
    obtain ⟨sockets',updated,sound',fds,_⟩ := sound.updateEventOnFd found
    let entered : SocketWalk := {walk with
        dispatchers := walk.dispatchers.set walk.evtd sockets'
        log := walk.log ++ [.dispatched walk.evtd tuple.fd tuple.handle]}
    have updates : walk.updateEventOnSocket sockets tuple.fd = .ok (true,entered) := by
      simp only [updateEventOnSocket,updated,entered]
    refine ⟨tuple,entry,entered,found,place,first,same,?_,rfl,rfl,rfl,sound_set lockstep.sound _ sound',?_,?_⟩
    · rw [enters,ready,if_pos rfl,updates]
    · obtain ⟨inside,rfl⟩ := List.getElem?_eq_some_iff.mp here
      change (walk.dispatchers.set walk.evtd sockets').map Descriptors.fds = _
      rw [List.map_set,fds,← @List.getElem_map _ _ Descriptors.fds _ _ (by rwa [List.length_map]),List.set_getElem_self]
    · rw [ready]
      rfl

theorem ahead_congr {walk' : SocketWalk} (evtd : walk'.evtd = walk.evtd)
    (fds : walk'.dispatchers.map Descriptors.fds = walk.dispatchers.map Descriptors.fds) (index : Nat) :
    walk'.ahead index = walk.ahead index := by
  rw [ahead,ahead,evtd,fds]

/-- Behind a handler that spares what is ahead the two are still side by side. -/
theorem Lockstep.advance (lockstep : Lockstep array keys walk) (distinct : keys.Nodup)
    (here : walk.dispatchers[walk.evtd]? = some sockets) {tuple : FdTuple} {entry : SocketEvents} {entered left : SocketWalk}
    (body : Entered array keys walk sockets tuple entry entered) (kept : Kept entered left)
    (order : left.ahead (left.index + 1) <+: entered.ahead (entered.index + 1))
    (gone : ∀ key ∈ entered.ahead (entered.index + 1), key ∈ left.ahead (left.index + 1) ∨ key ∈ left.unregistered) :
    left.advance.socketId = walk.socketId + 1 ∧ Lockstep array keys left.advance := by
  obtain ⟨inside,first⟩ := List.getElem?_eq_some_iff.mp body.key
  have cons := List.drop_eq_getElem_cons inside
  have socketId : left.advance.socketId = walk.socketId + 1 := by
    rw [SocketWalk.advance,kept.socketId,body.socketId]
  have ahead : entered.ahead (entered.index + 1) = walk.ahead (walk.index + 1) := by
    rw [body.index,ahead_congr body.evtd body.fds]
  have dispatched' : left.dispatched = walk.dispatched ++ if entry.ready then [(walk.evtd,tuple.fd)] else [] := by
    rw [kept.dispatched,SocketWalk.dispatched,body.log,List.filterMap_append,SocketWalk.dispatched]
    cases entry.ready <;> rfl
  have unregistered' : ∀ key ∈ walk.unregistered, key ∈ left.unregistered := by
    refine fun key member => kept.unregistered key ?_
    rw [unregistered,body.log,List.filterMap_append]
    exact List.mem_append_left _ member
  have behind := lockstep.ahead
  rw [ahead_cons here body.here,cons,first] at behind
  refine ⟨socketId,kept.sound,?_,?_,?_,?_,?_⟩
  · rw [socketId]
    rw [ahead] at order
    exact order.trans (List.cons_prefix_cons.mp behind).2
  · intro key member
    rw [socketId] at member
    have old : key ∈ keys.drop walk.socketId := by
      rw [cons]
      exact List.mem_cons_of_mem _ member
    rcases lockstep.gone key old with later | before
    · rw [ahead_cons here body.here] at later
      obtain rfl | later := List.mem_cons.mp later
      · have apart := distinct.sublist (List.drop_sublist walk.socketId keys)
        rw [cons,first] at apart
        exact absurd member (List.nodup_cons.mp apart).1
      · rw [← ahead] at later
        exact gone key later
    · exact .inr (unregistered' key before)
  · rw [socketId]
    exact inside
  · rw [socketId,readyUpTo_succ body.found body.key]
    change List.Sublist left.dispatched _
    rw [dispatched']
    exact lockstep.dispatched.append (List.Sublist.refl _)
  · intro key member
    change key ∈ left.dispatched ∨ key ∈ left.unregistered
    rw [socketId,readyUpTo_succ body.found body.key,List.mem_append] at member
    rw [dispatched',List.mem_append]
    obtain old | new := member
    · exact (lockstep.served key old).imp .inl (unregistered' key)
    · exact .inl (.inr new)

theorem Lockstep.iterate (lockstep : Lockstep array keys walk) (distinct : keys.Nodup)
    (filled : array.map SocketEvents.xiSocket = keys.map Prod.snd) (here : walk.dispatchers[walk.evtd]? = some sockets)
    (running : walk.index < sockets.container.elemNo) {calls : List SocketCall}
    (spares : ∀ entered, walk.enter array sockets = .ok (true,entered) →
      ∃ left, entered.executeHandle calls = .ok left ∧ left.ahead (left.index + 1) <+: entered.ahead (entered.index + 1) ∧
        ∀ key ∈ entered.ahead (entered.index + 1), key ∈ left.ahead (left.index + 1) ∨ key ∈ left.unregistered) :
    ∃ walk', walk.iterate array sockets calls = .ok walk' ∧ walk'.socketId = walk.socketId + 1 ∧ Lockstep array keys walk' := by
  obtain ⟨tuple,entry,entered,body⟩ := lockstep.entered filled here running
  have enters := body.enter
  cases ready : entry.ready with
  | false =>
    rw [ready] at enters
    refine ⟨entered.advance,?_,lockstep.advance distinct here body ⟨body.sound,rfl,rfl,rfl,rfl,fun _ member => member⟩
      List.prefix_rfl fun _ member => .inl member⟩
    simp only [SocketWalk.iterate,enters]
  | true =>
    rw [ready] at enters
    obtain ⟨left,executed,order,gone⟩ := spares entered enters
    refine ⟨left.advance,?_,lockstep.advance distinct here body (kept_executeHandle body.sound executed) order gone⟩
    simp only [SocketWalk.iterate,enters,executed]

/-- Where no element is left, whatever is not behind was unregistered. -/
theorem Lockstep.complete (lockstep : Lockstep array keys walk) (distinct : keys.Nodup)
    (filled : array.map SocketEvents.xiSocket = keys.map Prod.snd) (ended : walk.dispatchers[walk.evtd]? = none) :
    walk.Complete array keys := by
  have whole : array.length = keys.length := by simpa using congrArg List.length filled
  have all : readyUpTo array keys keys.length = readyKeys array keys := by
    rw [readyUpTo,List.take_of_length_le (by rw [List.length_zip,whole,min_self]),readyKeys]
  have initial : List.Sublist (readyUpTo array keys walk.socketId) (readyKeys array keys) :=
    ((List.take_sublist _ _).filter _).map _
  have single : (readyKeys array keys).Nodup := by
    refine distinct.sublist ?_
    refine (List.filter_sublist.map Prod.snd).trans ?_
    rw [List.map_snd_zip (by omega)]
  refine ⟨fun key member => ?_,single.sublist (lockstep.dispatched.trans initial),
    fun key member => (lockstep.dispatched.trans initial).subset member⟩
  obtain ⟨⟨entry,_⟩,pair,rfl⟩ := List.mem_map.mp member
  obtain ⟨n,place⟩ := List.mem_iff_getElem?.mp (List.mem_filter.mp pair).1
  obtain ⟨found,key⟩ := List.getElem?_zip_eq_some.mp place
  by_cases behind : n < walk.socketId
  · refine lockstep.served _ (List.mem_map.mpr ⟨_,List.mem_filter.mpr ⟨?_,(List.mem_filter.mp pair).2⟩,rfl⟩)
    exact List.mem_of_getElem? (by rw [List.getElem?_take_of_lt behind,place])
  · have later : keys[n]? = (keys.drop walk.socketId)[n - walk.socketId]? := by
      rw [List.getElem?_drop,Nat.add_sub_cancel' (by omega)]
    rcases lockstep.gone _ (List.mem_of_getElem? (later.symm.trans key)) with ahead | unregistered
    · rw [ahead_end ended] at ahead
      cases ahead
    · exact .inr unregistered

theorem Lockstep.matched (lockstep : Lockstep array keys walk) (filled : array.map SocketEvents.xiSocket = keys.map Prod.snd) :
    walk.Matched array := by
  intro sockets here
  have sought := seek_sought lockstep.sound
  rw [← sought.dispatchers] at here
  obtain ⟨tuple,entry,entered,body⟩ := lockstep.seek.entered filled here (sought.running sockets here)
  exact ⟨tuple,entry,body.here,body.found,body.same,entered,body.enter,by rw [body.log,sought.log]⟩

theorem Lockstep.turn (lockstep : Lockstep array keys walk) (distinct : keys.Nodup)
    (filled : array.map SocketEvents.xiSocket = keys.map Prod.snd) (here : walk.dispatchers[walk.seek.evtd]? = some sockets)
    {calls : List SocketCall} (spares : walk.SparesTurn array calls) :
    ∃ walk', walk.seek.iterate array sockets calls = .ok walk' ∧ walk'.socketId = walk.socketId + 1 ∧
      Lockstep array keys walk' := by
  have sought := seek_sought lockstep.sound
  have here' : walk.seek.dispatchers[walk.seek.evtd]? = some sockets := by rw [sought.dispatchers,here]
  obtain ⟨walk',iterated,socketId,lockstep'⟩ := lockstep.seek.iterate distinct filled here' (sought.running sockets here')
    fun entered enters => spares sockets entered here enters
  exact ⟨walk',iterated,by rw [socketId,sought.socketId],lockstep'⟩

theorem Lockstep.loop {behaviours : List (List SocketCall)} (lockstep : Lockstep array keys walk) (distinct : keys.Nodup)
    (filled : array.map SocketEvents.xiSocket = keys.map Prod.snd)
    (spares : Runs.Each (SocketWalk.turn array) (SparesTurn array) walk behaviours) :
    Served array keys (walk.socketId + behaviours.length) (walk.loop array behaviours) := by
  induction behaviours generalizing walk with
  | nil =>
    rw [SocketWalk.loop]
    have sought := seek_sought lockstep.sound
    cases here : walk.dispatchers[walk.seek.evtd]? with
    | none => exact lockstep.seek.complete distinct filled (by rw [sought.dispatchers,here])
    | some sockets =>
      rw [← sought.dispatchers] at here
      obtain ⟨_,_,_,body⟩ := lockstep.seek.entered filled here (sought.running sockets here)
      obtain ⟨inside,_⟩ := List.getElem?_eq_some_iff.mp body.found
      rw [sought.socketId] at inside
      exact ⟨rfl,inside⟩
  | cons calls behaviours ih =>
    rw [SocketWalk.loop]
    cases here : walk.dispatchers[walk.seek.evtd]? with
    | none =>
      have sought := seek_sought lockstep.sound
      exact lockstep.seek.complete distinct filled (by rw [sought.dispatchers,here])
    | some sockets =>
      obtain ⟨walk',iterated,socketId,lockstep'⟩ := lockstep.turn distinct filled here spares.1
      have rest := ih lockstep' (spares.2 walk' (by rw [SocketWalk.turn,here,Option.bind_some,iterated]; rfl))
      simp only [iterated]
      rwa [socketId,Nat.add_assoc,Nat.add_comm 1] at rest

/-- In a run whose handlers spare what is ahead each element is matched. -/
theorem Lockstep.each_matched {behaviours : List (List SocketCall)} (lockstep : Lockstep array keys walk) (distinct : keys.Nodup)
    (filled : array.map SocketEvents.xiSocket = keys.map Prod.snd)
    (spares : Runs.Each (SocketWalk.turn array) (SparesTurn array) walk behaviours) :
    Runs.Each (SocketWalk.turn array) (fun walk _ => walk.Matched array) walk behaviours := by
  refine Runs.each_of_each (I := Lockstep array keys) (fun walk _ lockstep _ => lockstep.matched filled) ?_ lockstep spares
  intro walk calls walk' lockstep spares stepped
  obtain ⟨sockets,here,iterates⟩ := Option.bind_eq_some_iff.mp stepped
  obtain ⟨walk'',iterated,_,lockstep'⟩ := lockstep.turn distinct filled here spares
  rw [iterated] at iterates
  obtain rfl := Option.some.inj iterates
  exact lockstep'

end Run

end SocketWalk

section Transform

variable {dispatchers : List Descriptors}

theorem keysFrom_ge {evtd : Nat} {fdss : List (List Int)} : ∀ key ∈ keysFrom evtd fdss, evtd ≤ key.1 := by
  induction fdss generalizing evtd with
  | nil =>
    intro key member
    cases member
  | cons fds rest ih =>
    intro key member
    rw [keysFrom,List.mem_append] at member
    obtain own | later := member
    · obtain ⟨fd,_,rfl⟩ := List.mem_map.mp own
      exact le_rfl
    · exact (Nat.le_succ evtd).trans (ih key later)

theorem keysFrom_nodup {evtd : Nat} {fdss : List (List Int)} (distinct : ∀ fds ∈ fdss, fds.Nodup) : (keysFrom evtd fdss).Nodup := by
  induction fdss generalizing evtd with
  | nil => exact List.nodup_nil
  | cons fds rest ih =>
    obtain ⟨own,others⟩ := List.forall_mem_cons.mp distinct
    refine List.nodup_append.mpr ⟨own.map fun _ _ same => (Prod.mk.inj same).2,ih others,?_⟩
    rintro key member other later rfl
    obtain ⟨fd,_,rfl⟩ := List.mem_map.mp member
    have above := keysFrom_ge _ later
    omega

theorem fillFrom_eq {tuple : Nat → Option FdTuple} {addresses : List Nat} {tuples : List FdTuple}
    (same : addresses.map tuple = tuples.map some) : fillFrom tuple addresses = .ok (tuples.map SocketEvents.ofTuple) := by
  induction addresses generalizing tuples with
  | nil =>
    obtain rfl : tuples = [] := List.map_eq_nil_iff.mp same.symm
    rfl
  | cons address addresses ih =>
    cases tuples with
    | nil => cases same
    | cons first tuples =>
      obtain ⟨here,rest⟩ := List.cons.inj same
      simp only [fillFrom,here,ih rest]
      rfl

/-- The array has one entry for each socket, in the order of the vectors. -/
theorem fillAll_eq (sound : ∀ sockets ∈ dispatchers, sockets.Sound) (evtd : Nat) :
    ∃ entries, fillAll dispatchers = .ok entries ∧ entries.length = countAllSockets dispatchers ∧
      entries.map SocketEvents.xiSocket = (keysFrom evtd (dispatchers.map Descriptors.fds)).map Prod.snd := by
  induction dispatchers generalizing evtd with
  | nil => exact ⟨[],rfl,rfl,rfl⟩
  | cons sockets rest ih =>
    obtain ⟨own,others⟩ := List.forall_mem_cons.mp sound
    obtain ⟨entries,filled,count,same⟩ := ih others (evtd + 1)
    refine ⟨sockets.view.map SocketEvents.ofTuple ++ entries,?_,?_,?_⟩
    · rw [fillAll,fillFrom_eq own.tuples,filled]
      rfl
    · have elemNo := own.elemNo
      rw [List.length_append,List.length_map,count,countAllSockets,countAllSockets,List.map_cons,List.sum_cons]
      omega
    · rw [List.map_append,same,List.map_cons,keysFrom,List.map_append,List.map_map,List.map_map,Descriptors.fds,List.map_map]
      rfl

theorem transformToBspSelect_eq (sound : ∀ sockets ∈ dispatchers, sockets.Sound) :
    ∃ entries, transformToBspSelect dispatchers = .ok entries ∧ entries.length = countAllSockets dispatchers ∧
      entries.map SocketEvents.xiSocket = (keys dispatchers).map Prod.snd := by
  obtain ⟨entries,filled,count,same⟩ := fillAll_eq sound 0
  refine ⟨entries,?_,count,same⟩
  simp only [transformToBspSelect,filled]
  rw [if_pos count.le,count,Nat.sub_self,List.replicate_zero,List.append_nil]

theorem select_xiSocket (answers : Nat → Readiness) (array : List SocketEvents) :
    (select answers array).map SocketEvents.xiSocket = array.map SocketEvents.xiSocket := by
  refine List.ext_getElem (by simp [select]) fun n left right => ?_
  simp [select]

end Transform

open SocketWalk

/-- Where every turn spares what is ahead of it, each element is that of its entry, and the ready sockets are dispatched, each once
and to its own handler. -/
theorem each_socket_matched (dispatchers : List Descriptors) (sound : ∀ sockets ∈ dispatchers, sockets.Sound)
    (answers : Nat → Readiness) (behaviours : List (List SocketCall)) :
    ∃ entries, transformToBspSelect dispatchers = .ok entries ∧ entries.length = countAllSockets dispatchers ∧
      (Runs.Each (turn (select answers entries)) (SparesTurn (select answers entries)) {dispatchers := dispatchers} behaviours →
        Runs.Each (turn (select answers entries)) (fun walk _ => walk.Matched (select answers entries))
            {dispatchers := dispatchers} behaviours ∧
          Served (select answers entries) (keys dispatchers) behaviours.length
            (updateEventDispatcher (select answers entries) dispatchers behaviours)) := by
  obtain ⟨entries,transformed,count,same⟩ := transformToBspSelect_eq sound
  refine ⟨entries,transformed,count,fun spares => ?_⟩
  have filled : (select answers entries).map SocketEvents.xiSocket = (keys dispatchers).map Prod.snd := by
    rw [select_xiSocket,same]
  have distinct : (keys dispatchers).Nodup := by
    refine keysFrom_nodup fun fds member => ?_
    obtain ⟨sockets,among,rfl⟩ := List.mem_map.mp member
    exact (sound sockets among).single
  have start : ahead {dispatchers := dispatchers} 0 = keys dispatchers := ahead_zero
  have lockstep : Lockstep (select answers entries) (keys dispatchers) {dispatchers := dispatchers} := by
    refine ⟨sound,?_,?_,Nat.zero_le _,List.nil_sublist _,?_⟩
    · rw [start]
      exact List.prefix_rfl
    · intro key member
      rw [start]
      exact .inl member
    · intro key member
      cases member
  refine ⟨lockstep.each_matched distinct filled spares,?_⟩
  rw [← Nat.zero_add behaviours.length]
  exact lockstep.loop distinct filled spares

/-- Two dispatchers, of two sockets and of one, that wait to be read. -/
def twoDispatchers : List Descriptors :=
  [{container := {array := [0,1],elemNo := 2,capacity := 2,memoryType := .managed}
    tuple := fun address => if address < 2 then some ⟨address,address,address,wantRead,.socket⟩ else none
    next := 2},
   {container := {array := [0,0],elemNo := 1,capacity := 2,memoryType := .managed}
    tuple := fun address => if address < 1 then some ⟨2,2,2,wantRead,.socket⟩ else none
    next := 1}]

/-- All of their sockets can be read. -/
def allReady : List SocketEvents :=
  [0,1,2].map fun fd => {xiSocket := fd,inWantRead := true,out := {canRead := true}}

theorem twoDispatchers_sound : ∀ sockets ∈ twoDispatchers, sockets.Sound := by
  refine List.forall_mem_cons.mpr ⟨?_,List.forall_mem_singleton.mpr ?_⟩
  · exact ⟨⟨by decide,by decide,by decide,by decide,by decide⟩,rfl,by decide,by decide,by decide⟩
  · exact ⟨⟨by decide,by decide,by decide,by decide,by decide⟩,rfl,by decide,by decide,by decide⟩

/-- The last of the sockets unregisters itself in its turn. -/
theorem each_socket_matched_two : ∃ walk, updateEventDispatcher allReady twoDispatchers [[],[],[⟨1,.unregister 2⟩]] = .ok walk ∧
    walk.Complete allReady (keys twoDispatchers) := by
  obtain ⟨entries,transformed,_,matched⟩ :=
    each_socket_matched twoDispatchers twoDispatchers_sound (fun _ => {canRead := true}) [[],[],[⟨1,.unregister 2⟩]]
  obtain rfl := Except.ok.inj transformed
  have served := (matched ?_).2
  · exact ⟨_,rfl,served⟩
  · refine ⟨fun _ entered _ _ => ⟨entered,rfl,List.prefix_rfl,fun _ ahead => .inl ahead⟩,fun first stepped =>
      ⟨fun _ entered _ _ => ⟨entered,rfl,List.prefix_rfl,fun _ ahead => .inl ahead⟩,fun second stepped' => ⟨?_,fun _ _ => trivial⟩⟩⟩
    obtain rfl := Option.some.inj stepped
    obtain rfl := Option.some.inj stepped'
    intro sockets entered here enters
    obtain rfl := Option.some.inj here
    obtain rfl := (Prod.mk.inj (Except.ok.inj enters)).2
    exact ⟨_,rfl,by decide,by decide⟩

/-- The first socket unregisters itself, as after a failed connect, and the entry of the second stands beside the third. -/
theorem updateEventDispatcher_mismatch : (∀ sockets ∈ twoDispatchers, sockets.Sound) ∧
    (∃ entries, transformToBspSelect twoDispatchers = .ok entries ∧ select (fun _ => {canRead := true}) entries = allReady) ∧
    updateEventDispatcher allReady twoDispatchers [[⟨0,.unregister 0⟩],[],[]] = .error .assertion :=
  ⟨twoDispatchers_sound,⟨_,rfl,rfl⟩,rfl⟩

end XivelyClient.EventLoop
