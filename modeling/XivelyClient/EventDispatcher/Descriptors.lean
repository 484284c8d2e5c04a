import XivelyClient.Datastructures.Vector
import XivelyClient.State
import XivelyClient.Lib.SwapDelete
import Mathlib.Data.List.Nodup

/-! The file descriptors of a dispatcher (`xi_event_dispatcher.c`): a vector of addresses of tuples, each in memory of its own.
A freed tuple is not there any more, and no address is given out again. -/
namespace XivelyClient.EventDispatcher

/-- What ends a run: the access to a freed tuple or outside of a block, an assertion, an error that is returned, or that no
behaviour is left for a handler. -/
inductive Stop
  | freedTuple | outside | assertion | starved
  | returned (state : XiState)
  deriving DecidableEq, Repr

/-- `xi_evtd_fd_type_t` -/
inductive FdType
  | socket | file
  deriving DecidableEq, Repr

/-- `xi_evtd_fd_tuple_t` -/
structure FdTuple where
  fd : Int
  handle : Nat
  readHandle : Nat
  eventType : Nat
  fdType : FdType
  deriving DecidableEq, Repr

/-! The bits of `xi_event_type_t`. -/

def wantRead : Nat := 1 <<< 1

def wantWrite : Nat := 1 <<< 2

def eventError : Nat := 1 <<< 3

def wantConnect : Nat := 1 <<< 4

/-- One of the two containers of a dispatcher. -/
structure Descriptors where
  container : XiVector Nat
  tuple : Nat → Option FdTuple := fun _ => none
  next : Nat := 0

namespace Descriptors

/-- `xi_vector_find` with `xi_evtd_cmp_fd`, which reads each tuple that it compares. -/
def findFrom (tuple : Nat → Option FdTuple) (fd : Int) : Nat → List Nat → Except Stop (Option Nat)
  | _,[] => .ok none
  | i,e0 :: rest =>
    match tuple e0 with
    | none => .error .freedTuple
    | some compared => if compared.fd = fd then .ok (some i) else findFrom tuple fd (i + 1) rest

def find (d : Descriptors) (fd : Int) : Except Stop (Option Nat) := findFrom d.tuple fd 0 d.container.contents

/-- The element of the array, and the tuple there. -/
def tupleAt (d : Descriptors) (index : Nat) : Except Stop (Nat × FdTuple) :=
  match d.container.array[index]? with
  | none => .error .outside
  | some address =>
    match d.tuple address with
    | none => .error .freedTuple
    | some tuple => .ok (address,tuple)

/-- `xi_evtd_register_fd` -/
def registerFd (d : Descriptors) (eventType : Nat) (fdType : FdType) (fd : Int) (readHandle currentHandle : Nat)
    (alloc allocVector : Bool) : Except Stop (Bool × Descriptors) :=
  match d.find fd with
  | .error stop => .error stop
  | .ok (some _) => .error .assertion
  | .ok none =>
    if alloc then
      match d.container.push d.next allocVector with
      | none => .error .outside
      | some (true,container) => .ok (true,{
          container := container
          tuple := Function.update d.tuple d.next (some {
            fd := fd,eventType := eventType,readHandle := readHandle,handle := currentHandle,fdType := fdType})
          next := d.next + 1})
      | some (false,container) => .ok (false,{d with container := container,next := d.next + 1})
    else .ok (false,d)

def registerFileFd (d : Descriptors) (eventType : Nat) (fd : Int) (handle : Nat) (alloc allocVector : Bool) :
    Except Stop (Bool × Descriptors) :=
  d.registerFd eventType .file fd handle handle alloc allocVector

def registerSocketFd (d : Descriptors) (fd : Int) (readHandle : Nat) (alloc allocVector : Bool) :
    Except Stop (Bool × Descriptors) :=
  d.registerFd wantRead .socket fd readHandle readHandle alloc allocVector

/-- `xi_evtd_unregister_fd`: the tuple is freed and its place deleted. -/
def unregisterFd (d : Descriptors) (fd : Int) : Except Stop (Bool × Descriptors) :=
  match d.find fd with
  | .error stop => .error stop
  | .ok none => .ok (false,d)
  | .ok (some id) =>
    match d.tupleAt id with
    | .error stop => .error stop
    | .ok (address,_) =>
      match d.container.perform (.del (Int8.ofInt id)) with
      | none => .error .assertion
      | some (_,container) => .ok (true,{d with container := container,tuple := Function.update d.tuple address none})

/-- `xi_evtd_continue_when_evt_on_socket` -/
def continueWhenEvtOnSocket (d : Descriptors) (eventType handle : Nat) (fd : Int) : Except Stop (Bool × Descriptors) :=
  match d.find fd with
  | .error stop => .error stop
  | .ok none => .ok (false,d)
  | .ok (some id) =>
    match d.tupleAt id with
    | .error stop => .error stop
    | .ok (address,tuple) =>
      if tuple.fdType = .socket then
        .ok (true,{d with tuple := Function.update d.tuple address (some {tuple with eventType := eventType,handle := handle})})
      else .error .assertion

/-- `xi_evtd_update_event_on_fd` up to the execution of the handle that it has saved. Where there is no tuple the dispatcher is
stopped, and the answer is `XI_FD_HANDLER_NOT_FOUND`. -/
def updateEventOnFd (d : Descriptors) (fd : Int) : Except Stop (Option (Nat × Descriptors)) :=
  match d.find fd with
  | .error stop => .error stop
  | .ok none => .ok none
  | .ok (some id) =>
    match d.tupleAt id with
    | .error stop => .error stop
    | .ok (address,tuple) =>
      .ok (some (tuple.handle,
        if tuple.fdType = .socket then
          {d with tuple := Function.update d.tuple address (some {tuple with eventType := wantRead,handle := tuple.readHandle})}
        else d))

/-- The tuples in the order of the vector. -/
def view (d : Descriptors) : List FdTuple := d.container.contents.filterMap d.tuple

def fds (d : Descriptors) : List Int := d.view.map FdTuple.fd

/-- No element of the vector is freed, none is there twice, and each descriptor has one tuple. -/
structure Sound (d : Descriptors) : Prop where
  container : d.container.Sound
  tuples : d.container.contents.map d.tuple = d.view.map some
  distinct : d.container.contents.Nodup
  fresh : ∀ address ∈ d.container.contents, address < d.next
  single : d.fds.Nodup

/-- `xi_evtd_create_instance` begins with an empty vector. -/
def create (alloc allocArray : Bool) : Option (Option Descriptors) :=
  (XiVector.create alloc allocArray).map fun container => container.map fun container => {container := container}

theorem create_sound {alloc allocArray : Bool} {d : Descriptors} (made : create alloc allocArray = some (some d)) :
    d.Sound ∧ d.view = [] := by
  simp only [create,Option.map_eq_some_iff] at made
  obtain ⟨_,created,container,rfl,rfl⟩ := made
  obtain ⟨sound,empty⟩ := (XiVector.Origin.make_sound (.create alloc allocArray) created).mpr trivial
  rw [XiVector.Origin.list] at empty
  constructor
  · refine ⟨sound,?_,?_,?_,?_⟩ <;> simp [view,fds,empty]
  · simp [view]

section Reading

variable {d : Descriptors}

theorem findFrom_spec {tuple : Nat → Option FdTuple} {addresses : List Nat} {tuples : List FdTuple}
    (same : addresses.map tuple = tuples.map some) (fd : Int) (i : Nat) :
    findFrom tuple fd i addresses = .ok (((tuples.map FdTuple.fd).idxOf? fd).map (· + i)) := by
  induction addresses generalizing tuples i with
  | nil =>
    obtain rfl : tuples = [] := List.map_eq_nil_iff.mp same.symm
    rfl
  | cons address addresses ih =>
    cases tuples with
    | nil => cases same
    | cons first tuples =>
      obtain ⟨here,rest⟩ := List.cons.inj same
      rw [findFrom,here,List.map_cons,List.idxOf?_cons]
      by_cases found : first.fd = fd
      · simp [found]
      · simp only [found,if_false,beq_iff_eq,ih rest,Option.map_map]
        congr 2
        funext n
        simp only [Function.comp]
        omega

theorem Sound.find (sound : d.Sound) (fd : Int) : d.find fd = .ok (d.fds.idxOf? fd) := by
  rw [Descriptors.find,findFrom_spec sound.tuples,Descriptors.fds]
  simp

theorem Sound.length (sound : d.Sound) : d.view.length = d.container.contents.length := by
  simpa using (congrArg List.length sound.tuples).symm

theorem Sound.elemNo (sound : d.Sound) : (d.view.length : Int) = d.container.elemNo := by
  have whole := sound.container.whole
  have within := sound.container.within
  rw [sound.length,XiVector.contents_length (by omega)]
  exact Int.toNat_of_nonneg sound.container.nonneg

/-- Each place of the vector holds the address of the tuple there. -/
theorem Sound.tupleAt (sound : d.Sound) {index : Nat} {tuple : FdTuple} (found : d.view[index]? = some tuple) :
    ∃ address, d.container.contents[index]? = some address ∧ d.tuple address = some tuple ∧
      d.tupleAt index = .ok (address,tuple) := by
  have inside : (index : Int) < d.container.elemNo := by
    have := (List.getElem?_eq_some_iff.mp found).1
    have := sound.elemNo
    omega
  have both := congrArg (·[index]?) sound.tuples
  simp only [List.getElem?_map,found,Option.map_some] at both
  obtain ⟨address,here,held⟩ := Option.map_eq_some_iff.mp both
  refine ⟨address,here,held,?_⟩
  rw [XiVector.contents_getElem? inside] at here
  rw [Descriptors.tupleAt,here]
  simp only [held]

theorem found_fds {fd : Int} {index : Nat} (found : d.fds.idxOf? fd = some index) :
    ∃ tuple, d.view[index]? = some tuple ∧ tuple.fd = fd := by
  obtain ⟨inside,same,_⟩ := List.findIdx?_eq_some_iff_getElem.mp found
  rw [fds,List.length_map] at inside
  refine ⟨d.view[index],List.getElem?_eq_getElem inside,?_⟩
  simpa [fds] using same

theorem Sound.idxOf?_fds (sound : d.Sound) {index : Nat} {tuple : FdTuple} (here : d.view[index]? = some tuple) :
    d.fds.idxOf? tuple.fd = some index := by
  obtain ⟨inside,rfl⟩ := List.getElem?_eq_some_iff.mp here
  have inside' : index < d.fds.length := by rwa [fds,List.length_map]
  have own : d.fds[index] = d.view[index].fd := List.getElem_map FdTuple.fd
  refine List.findIdx?_eq_some_iff_getElem.mpr ⟨inside',by rw [own]; exact beq_self_eq_true _,fun j before equal => ?_⟩
  rw [← own,beq_iff_eq] at equal
  exact before.ne (sound.single.getElem_inj_iff.mp equal)

theorem view_eq {view : List FdTuple} (tuples : d.container.contents.map d.tuple = view.map some) : d.view = view := by
  calc d.view
    _ = (d.container.contents.map d.tuple).filterMap id := by rw [List.filterMap_map]; rfl
    _ = (view.map some).filterMap id := by rw [tuples]
    _ = view := by rw [List.filterMap_map,Function.id_comp,List.filterMap_some]

end Reading

section Changing

variable {d : Descriptors} (sound : d.Sound)
include sound

/-- A registered descriptor is refused, and any other one comes behind the others. -/
theorem Sound.registerFd_registered {fd : Int} (registered : fd ∈ d.fds) (eventType : Nat) (fdType : FdType)
    (readHandle currentHandle : Nat) (alloc allocVector : Bool) :
    d.registerFd eventType fdType fd readHandle currentHandle alloc allocVector = .error .assertion := by
  rw [registerFd,sound.find]
  cases found : d.fds.idxOf? fd with
  | none => exact absurd registered (List.idxOf?_eq_none_iff.mp found)
  | some index => rfl

theorem Sound.registerFd {fd : Int} (absent : fd ∉ d.fds) (eventType : Nat) (fdType : FdType) (readHandle currentHandle : Nat)
    (alloc allocVector : Bool) :
    ∃ answer d', d.registerFd eventType fdType fd readHandle currentHandle alloc allocVector = .ok (answer,d') ∧ d'.Sound ∧
      d'.view = if answer then d.view ++ [⟨fd,currentHandle,readHandle,eventType,fdType⟩] else d.view := by
  rw [Descriptors.registerFd,sound.find,List.idxOf?_eq_none_iff.mpr absent]
  cases alloc with
  | false => exact ⟨false,d,rfl,sound,rfl⟩
  | true =>
    obtain ⟨answer,container,pushed,follows⟩ := XiVector.push_follows sound.container d.next allocVector
    simp only [if_true,pushed]
    cases answer with
    | false =>
      have contents : container.contents = d.container.contents := follows.contents
      let d' : Descriptors := {d with container := container,next := d.next + 1}
      have view' : d'.view = d.view := by
        rw [view,contents,view]
      refine ⟨false,d',rfl,⟨follows.sound,by rw [view',contents,sound.tuples],by rw [contents]; exact sound.distinct,?_,?_⟩,view'⟩
      · intro address member
        rw [contents] at member
        exact (sound.fresh address member).trans (Nat.lt_succ_self _)
      · rw [fds,view']
        exact sound.single
    | true =>
      have contents : container.contents = d.container.contents ++ [d.next] := follows.contents
      have unused : d.next ∉ d.container.contents := fun member => (sound.fresh _ member).ne rfl
      let tuple : FdTuple := ⟨fd,currentHandle,readHandle,eventType,fdType⟩
      let d' : Descriptors := ⟨container,Function.update d.tuple d.next (some tuple),d.next + 1⟩
      have tuples : d'.container.contents.map d'.tuple = (d.view ++ [tuple]).map some := by
        rw [contents,List.map_append,List.map_append,← sound.tuples]
        congr 1
        · refine List.map_congr_left fun address member => Function.update_of_ne ?_ _ _
          rintro rfl
          exact unused member
        · exact congrArg (fun t => [t]) (Function.update_self _ _ _)
      have view' := view_eq tuples
      refine ⟨true,d',rfl,⟨follows.sound,by rw [tuples,view'],?_,?_,?_⟩,view'⟩
      · rw [contents,(List.perm_append_singleton _ _).nodup_iff]
        exact List.nodup_cons.mpr ⟨unused,sound.distinct⟩
      · intro address member
        rw [contents,List.mem_append,List.mem_singleton] at member
        obtain old | rfl := member
        · exact (sound.fresh address old).trans (Nat.lt_succ_self _)
        · exact Nat.lt_succ_self _
      · rw [fds,view',List.map_append,List.map_singleton,(List.perm_append_singleton _ _).nodup_iff]
        exact List.nodup_cons.mpr ⟨absent,sound.single⟩

theorem Sound.unregisterFd_absent {fd : Int} (absent : fd ∉ d.fds) : d.unregisterFd fd = .ok (false,d) := by
  rw [unregisterFd,sound.find,List.idxOf?_eq_none_iff.mpr absent]

/-- The last tuple comes to the place of the one that is unregistered. -/
theorem Sound.unregisterFd {fd : Int} {p : Nat} (found : d.fds.idxOf? fd = some p) :
    ∃ d', d.unregisterFd fd = .ok (true,d') ∧ d'.Sound ∧ d'.view = SwapDelete.delete d.view p := by
  obtain ⟨tuple,here,_⟩ := found_fds found
  obtain ⟨address,place,_,read⟩ := sound.tupleAt here
  obtain ⟨inside,same⟩ := List.getElem?_eq_some_iff.mp place
  have inside' : p < d.view.length := (List.getElem?_eq_some_iff.mp here).1
  obtain ⟨container,_,deleted,container',contents⟩ :=
    sound.container.del (show (p : Int) < d.container.elemNo by have := sound.elemNo; omega)
  have perm := SwapDelete.delete_perm inside
  rw [← contents,same] at perm
  have distinct := perm.nodup_iff.mpr sound.distinct
  let d' : Descriptors := {d with container := container,tuple := Function.update d.tuple address none}
  have tuples : d'.container.contents.map d'.tuple = (SwapDelete.delete d.view p).map some := by
    rw [SwapDelete.map_delete,← sound.tuples,← SwapDelete.map_delete,← contents]
    refine List.map_congr_left fun other member => Function.update_of_ne ?_ _ _
    rintro rfl
    exact (List.nodup_cons.mp distinct).1 member
  have view' := view_eq tuples
  refine ⟨d',?_,⟨container',by rw [tuples,view'],(List.nodup_cons.mp distinct).2,?_,?_⟩,view'⟩
  · simp only [Descriptors.unregisterFd,sound.find,found,read,deleted]
    rfl
  · exact fun other member => sound.fresh other (perm.mem_iff.mp (List.mem_cons_of_mem _ member))
  · have permuted := (SwapDelete.delete_perm inside').map FdTuple.fd
    rw [fds,view']
    exact (List.nodup_cons.mp (permuted.nodup_iff.mpr sound.single)).2

omit sound in
theorem fds_set {index : Nat} {tuple tuple' : FdTuple} (here : d.view[index]? = some tuple) (same : tuple'.fd = tuple.fd) :
    (d.view.set index tuple').map FdTuple.fd = d.fds := by
  obtain ⟨inside,rfl⟩ := List.getElem?_eq_some_iff.mp here
  rw [fds,List.map_set,same,← @List.getElem_map _ _ FdTuple.fd _ _ (by rwa [List.length_map]),List.set_getElem_self]

/-- A change of a tuple that keeps its descriptor. -/
theorem Sound.update {index address : Nat} {tuple tuple' : FdTuple} (here : d.view[index]? = some tuple)
    (place : d.container.contents[index]? = some address) (same : tuple'.fd = tuple.fd) :
    Sound {d with tuple := Function.update d.tuple address (some tuple')} ∧
      view {d with tuple := Function.update d.tuple address (some tuple')} = d.view.set index tuple' := by
  obtain ⟨inside,rfl⟩ := List.getElem?_eq_some_iff.mp place
  let d' : Descriptors := {d with tuple := Function.update d.tuple d.container.contents[index] (some tuple')}
  have tuples : d'.container.contents.map d'.tuple = (d.view.set index tuple').map some := by
    rw [sound.distinct.map_update,if_pos (List.getElem_mem inside),sound.distinct.idxOf_getElem,sound.tuples,List.map_set]
  have view' := view_eq tuples
  have fds' : d'.fds = d.fds := by rw [fds,view',fds_set here same]
  exact ⟨⟨sound.container,by rw [tuples,view'],sound.distinct,sound.fresh,by rw [fds']; exact sound.single⟩,view'⟩

/-- The handle that is saved is that of the descriptor, and a socket waits to be read again. -/
theorem Sound.updateEventOnFd {index : Nat} {tuple : FdTuple} (here : d.view[index]? = some tuple) :
    ∃ d', d.updateEventOnFd tuple.fd = .ok (some (tuple.handle,d')) ∧ d'.Sound ∧ d'.fds = d.fds ∧
      (tuple.fdType = .file → d' = d) := by
  obtain ⟨address,place,_,read⟩ := sound.tupleAt here
  simp only [Descriptors.updateEventOnFd,sound.find,sound.idxOf?_fds here,read]
  by_cases socket : tuple.fdType = .socket
  · obtain ⟨sound',view'⟩ := @Sound.update d sound _ _ _ {tuple with eventType := wantRead,handle := tuple.readHandle} here place rfl
    rw [if_pos socket]
    refine ⟨_,rfl,sound',?_,fun file => ?_⟩
    · rw [fds,view']
      exact fds_set here rfl
    · rw [file] at socket
      cases socket
  · rw [if_neg socket]
    exact ⟨d,rfl,sound,rfl,fun _ => rfl⟩

end Changing

end Descriptors

end XivelyClient.EventDispatcher
