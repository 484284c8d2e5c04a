import Mathlib.Algebra.Group.Int.Defs
import Mathlib.Algebra.Group.Nat.Defs
import XivelyClient.Lib.Runs
import XivelyClient.Lib.SinglyLinked

/-! The raw input of the TLS layer (`xi_tls_layer.c`): received buffers wait in a list, and the reads of the TLS library take their bytes
out of the first one. A failed assertion, and an access to a buffer that was freed, have no result. -/
namespace XivelyClient.RawInput

open SinglyLinked

/-- `xi_data_desc_t` of a received buffer -/
structure Buffer where
  data : List UInt8
  currPos : Nat := 0
  deriving DecidableEq, Repr

/-- What is left to be read. -/
def Buffer.rest (buffer : Buffer) : List UInt8 := buffer.data.drop buffer.currPos

/-- `xi_bsp_tls_state_t`, as far as a read answers it. -/
inductive TlsState
  | ok | wantRead
  deriving DecidableEq, Repr

/-- The list `raw_buffer` and the memory of its buffers, which are known by their addresses. `buffers` counts what was received; it bounds
the walks along the list. -/
structure LayerData where
  rawBuffer : Links Nat := {}
  desc : Nat → Option Buffer := fun _ => none
  buffers : Nat := 0

/-- The difference of two lengths, as an `int`. -/
def dataLengthAvailable (buffer : Buffer) : Int :=
  let difference : Nat := (buffer.data.length - buffer.currPos) % 2 ^ 32
  if difference < 2 ^ 31 then (difference : Int) else (difference : Int) - 2 ^ 32

namespace LayerData

/-- `xi_bsp_tls_recv_callback`, with the bytes that it copies. -/
def recvCallback (layer : LayerData) (sz : Nat) : Option (TlsState × List UInt8 × LayerData) :=
  match layer.rawBuffer.head with
  | none => some (.wantRead,[],layer)
  | some recvd => (layer.desc recvd).bind fun buffer =>
    if 0 < dataLengthAvailable buffer then
      let bytesToCopy := min sz (dataLengthAvailable buffer).toNat
      let bytes := (buffer.data.drop buffer.currPos).take bytesToCopy
      let buffer := {buffer with currPos := buffer.currPos + bytesToCopy}
      if buffer.currPos = buffer.data.length then
        layer.rawBuffer.pop.map fun (tmp,rawBuffer) =>
          (.ok,bytes,{layer with rawBuffer,desc := Function.update layer.desc tmp none})
      else some (.ok,bytes,{layer with desc := Function.update layer.desc recvd (some buffer)})
    else none

/-- A buffer that the layer below has made: its link is `NULL`. -/
def allocated (layer : LayerData) (address : Nat) (buffer : Buffer) : LayerData :=
  {rawBuffer := layer.rawBuffer.clear address
   desc := Function.update layer.desc address (some buffer)
   buffers := layer.buffers + 1}

/-- `xi_tls_layer_pull` with a buffer, up to the handler that reads. -/
def pull (layer : LayerData) (address : Nat) : Option LayerData :=
  (layer.desc address).bind fun buffer =>
    if buffer.data.length - buffer.currPos ≠ 0 then
      (layer.rawBuffer.pushBack layer.buffers address).map fun rawBuffer => {layer with rawBuffer}
    else none

end LayerData

/-- The layer, with the bytes that have come and those that have been read. -/
structure Session where
  layer : LayerData := {}
  arrived : List UInt8 := []
  returned : List UInt8 := []

inductive Event
  | pull (address : Nat) (buffer : Buffer)
  | read (sz : Nat)
  deriving DecidableEq

/-- The layer below hands over a new buffer that is not empty, of no more bytes than an `int` can count (it has
`XI_IO_BUFFER_SIZE` of them at most). The TLS library reads something. -/
def Enabled (session : Session) : Event → Prop
  | .pull address buffer => session.layer.desc address = none ∧ buffer.currPos < buffer.data.length ∧ buffer.data.length < 2 ^ 31
  | .read sz => 0 < sz

instance (session : Session) : ∀ event, Decidable (Enabled session event)
  | .pull address buffer =>
    inferInstanceAs (Decidable (session.layer.desc address = none ∧ buffer.currPos < buffer.data.length ∧ buffer.data.length < 2 ^ 31))
  | .read sz => inferInstanceAs (Decidable (0 < sz))

def perform (session : Session) : Event → Option Session
  | .pull address buffer => ((session.layer.allocated address buffer).pull address).map fun layer =>
    {session with layer,arrived := session.arrived ++ buffer.rest}
  | .read sz => (session.layer.recvCallback sz).map fun (_,bytes,layer) =>
    {session with layer,returned := session.returned ++ bytes}

def next (session : Session) (event : Event) : Option Session := if Enabled session event then perform session event else none

/-- A buffer is taken over. A read gives the bytes that come next, at least one and no more than asked for; or there are none, and it says
so. -/
def Wanted (session : Session) (event : Event) : Prop :=
  Enabled session event → match event with
    | .pull _ _ => ∃ session', perform session event = some session' ∧ session'.returned <+: session'.arrived
    | .read sz => ∃ state bytes layer, session.layer.recvCallback sz = some (state,bytes,layer) ∧
        session.returned ++ bytes <+: session.arrived ∧
          ((state = .ok ∧ bytes ≠ [] ∧ bytes.length ≤ sz) ∨ (state = .wantRead ∧ bytes = [] ∧ session.returned = session.arrived))

/-- What waits in the buffers of a list. -/
def pending (desc : Nat → Option Buffer) (list : List Nat) : List UInt8 :=
  list.flatMap fun address => ((desc address).map Buffer.rest).getD []

/-- The buffers in the list are there, none is read to its end, and what they hold is what has come and was not read. -/
structure Queued (session : Session) (list : List Nat) : Prop where
  represents : session.layer.rawBuffer.Represents list
  counted : list.length ≤ session.layer.buffers
  alive : ∀ address ∈ list, ∃ buffer, session.layer.desc address = some buffer ∧ buffer.currPos < buffer.data.length ∧
    buffer.data.length < 2 ^ 31
  bytes : session.arrived = session.returned ++ pending session.layer.desc list

section Pending

variable {desc : Nat → Option Buffer} {list : List Nat} {address : Nat} {buffer : Buffer}

theorem pending_update (outside : address ∉ list) (value : Option Buffer) :
    pending (Function.update desc address value) list = pending desc list := by
  induction list with
  | nil => rfl
  | cons first rest ih =>
    rw [List.mem_cons,not_or] at outside
    rw [pending,List.flatMap_cons,Function.update_of_ne (Ne.symm outside.1)]
    exact congrArg (_ ++ ·) (ih outside.2)

theorem pending_cons (here : desc address = some buffer) : pending desc (address :: list) = buffer.rest ++ pending desc list := by
  rw [pending,List.flatMap_cons,here]
  rfl

theorem available (inside : buffer.currPos < buffer.data.length) (short : buffer.data.length < 2 ^ 31) :
    dataLengthAvailable buffer = buffer.rest.length := by
  rw [dataLengthAvailable,Buffer.rest,List.length_drop]
  have word : (buffer.data.length - buffer.currPos) % 2 ^ 32 = buffer.data.length - buffer.currPos := Nat.mod_eq_of_lt (by omega)
  simp only [word]
  rw [if_pos (by omega)]

/-- A change outside of the list leaves its buffers as they are. -/
theorem alive_update (alive : ∀ other ∈ list, ∃ buffer, desc other = some buffer ∧ buffer.currPos < buffer.data.length ∧
      buffer.data.length < 2 ^ 31) (outside : address ∉ list) (value : Option Buffer) :
    ∀ other ∈ list, ∃ buffer, Function.update desc address value other = some buffer ∧ buffer.currPos < buffer.data.length ∧
      buffer.data.length < 2 ^ 31 := by
  intro other member
  rw [Function.update_of_ne (ne_of_mem_of_not_mem member outside)]
  exact alive other member

/-- A read of `n` bytes leaves the others. -/
theorem rest_advance (n : Nat) : ({buffer with currPos := buffer.currPos + n} : Buffer).rest = buffer.rest.drop n := by
  rw [Buffer.rest,Buffer.rest,List.drop_drop]

end Pending

section Steps

variable {session : Session} {list : List Nat}

theorem Queued.fresh (queued : Queued session list) {address : Nat} (free : session.layer.desc address = none) : address ∉ list := by
  intro member
  obtain ⟨buffer,there,_⟩ := queued.alive address member
  rw [free] at there
  cases there

theorem Queued.pull (queued : Queued session list) {address : Nat} {buffer : Buffer} (enabled : Enabled session (.pull address buffer)) :
    ∃ session', perform session (.pull address buffer) = some session' ∧ Queued session' (list ++ [address]) := by
  obtain ⟨free,inside,short⟩ := enabled
  have fresh := queued.fresh free
  obtain ⟨cleared,ended⟩ := queued.represents.clear fresh
  have counted : list.length ≤ session.layer.buffers + 1 := by
    have := queued.counted
    omega
  obtain ⟨rawBuffer,pushed,represents⟩ := cleared.pushBack fresh ended counted
  have here : (session.layer.allocated address buffer).desc address = some buffer := Function.update_self _ _ _
  refine ⟨⟨{session.layer.allocated address buffer with rawBuffer},session.arrived ++ buffer.rest,session.returned⟩,?_,represents,?_,?_,?_⟩
  · rw [perform,LayerData.pull,here,Option.bind_some,if_pos (by omega)]
    rw [LayerData.allocated,pushed]
    rfl
  · rw [List.length_append]
    exact Nat.add_le_add_right queued.counted 1
  · refine List.forall_mem_append.mpr ⟨alive_update queued.alive fresh _,List.forall_mem_singleton.mpr ?_⟩
    exact ⟨buffer,here,inside,short⟩
  · have split : pending (session.layer.allocated address buffer).desc (list ++ [address]) =
        pending session.layer.desc list ++ buffer.rest := by
      rw [pending,List.flatMap_append]
      refine congrArg₂ (· ++ ·) (pending_update fresh _) ?_
      rw [List.flatMap_singleton,here]
      rfl
    rw [split,queued.bytes,List.append_assoc]

/-- One read: of an empty list, of a part of the first buffer, or of what is left in it. -/
theorem Queued.read (queued : Queued session list) {sz : Nat} (positive : 0 < sz) :
    ∃ state bytes layer list', session.layer.recvCallback sz = some (state,bytes,layer) ∧
      Queued {session with layer,returned := session.returned ++ bytes} list' ∧
        ((state = .ok ∧ bytes ≠ [] ∧ bytes.length ≤ sz) ∨ (state = .wantRead ∧ bytes = [] ∧ session.returned = session.arrived)) := by
  have bytes := queued.bytes
  cases list with
  | nil =>
    have empty : session.layer.rawBuffer.head = none := queued.represents.linked
    refine ⟨.wantRead,[],session.layer,[],by rw [LayerData.recvCallback,empty],?_,.inr ⟨rfl,rfl,?_⟩⟩
    · rw [List.append_nil]
      exact queued
    · rw [bytes]
      exact (List.append_nil _).symm
  | cons recvd rest =>
    obtain ⟨⟨buffer,there,inside,short⟩,others⟩ := List.forall_mem_cons.mp queued.alive
    obtain ⟨outside,_⟩ := List.nodup_cons.mp queued.represents.nodup
    have head : session.layer.rawBuffer.head = some recvd := queued.represents.linked.1
    have length : buffer.rest.length = buffer.data.length - buffer.currPos := List.length_drop
    have left := available inside short
    have some' : 0 < dataLengthAvailable buffer := by omega
    let n := min sz (dataLengthAvailable buffer).toNat
    have bound : 0 < n ∧ n ≤ sz ∧ n ≤ buffer.rest.length := by omega
    have taken : (buffer.rest.take n).length = n := List.length_take_of_le bound.2.2
    have outcome : buffer.rest.take n ≠ [] ∧ (buffer.rest.take n).length ≤ sz := by
      refine ⟨?_,by omega⟩
      rw [← List.length_pos_iff]
      omega
    rw [pending_cons there] at bytes
    by_cases done : buffer.currPos + n = buffer.data.length
    · obtain ⟨rawBuffer,popped,represents⟩ := queued.represents.pop
      have all : buffer.rest.take n = buffer.rest := List.take_of_length_le (by omega)
      refine ⟨.ok,buffer.rest.take n,{session.layer with rawBuffer,desc := Function.update session.layer.desc recvd none},rest,?_,
        ⟨represents,?_,?_,?_⟩,.inl ⟨rfl,outcome⟩⟩
      · rw [LayerData.recvCallback,head]
        simp only [there,Option.bind_some,if_pos some']
        rw [if_pos done,popped]
        rfl
      · exact (Nat.le_succ rest.length).trans queued.counted
      · exact alive_update others outside none
      · rw [all,pending_update outside,List.append_assoc]
        exact bytes
    · let advanced : Buffer := {buffer with currPos := buffer.currPos + n}
      have here : Function.update session.layer.desc recvd (some advanced) recvd = some advanced := Function.update_self _ _ _
      refine ⟨.ok,buffer.rest.take n,{session.layer with desc := Function.update session.layer.desc recvd (some advanced)},recvd :: rest,?_,
        ⟨queued.represents,queued.counted,?_,?_⟩,.inl ⟨rfl,outcome⟩⟩
      · rw [LayerData.recvCallback,head]
        simp only [there,Option.bind_some,if_pos some']
        rw [if_neg done]
        rfl
      · refine List.forall_mem_cons.mpr ⟨⟨advanced,here,?_,short⟩,alive_update others outside _⟩
        change buffer.currPos + n < buffer.data.length
        omega
      · rw [pending_cons here,pending_update outside,rest_advance,List.append_assoc,← List.append_assoc (buffer.rest.take n),
          List.take_append_drop]
        exact bytes

theorem Queued.ordered (queued : Queued session list) : session.returned <+: session.arrived := ⟨_,queued.bytes.symm⟩

theorem Queued.wanted (queued : Queued session list) (event : Event) : Wanted session event := by
  intro enabled
  cases event with
  | pull address buffer =>
    obtain ⟨session',done,queued'⟩ := queued.pull enabled
    exact ⟨session',done,queued'.ordered⟩
  | read sz =>
    obtain ⟨state,bytes,layer,list',read,queued',outcome⟩ := queued.read enabled
    exact ⟨state,bytes,layer,read,queued'.ordered,outcome⟩

theorem Queued.next (queued : Queued session list) {event : Event} {session' : Session} (stepped : next session event = some session') :
    ∃ list', Queued session' list' := by
  rw [RawInput.next] at stepped
  split at stepped
  · rename_i enabled
    cases event with
    | pull address buffer =>
      obtain ⟨_,done,queued'⟩ := queued.pull enabled
      obtain rfl := Option.some_inj.mp (done.symm.trans stepped)
      exact ⟨_,queued'⟩
    | read sz =>
      obtain ⟨state,bytes,layer,list',read,queued',_⟩ := queued.read enabled
      rw [perform,read] at stepped
      obtain rfl := Option.some_inj.mp stepped
      exact ⟨_,queued'⟩
  · cases stepped

end Steps

/-- In every run the bytes that have been read are the first of those that have come, and a read that gets none has nothing left. -/
theorem each_fifo (events : List Event) : Runs.Each next Wanted {} events := by
  refine Runs.each_of_invariant (I := fun session => ∃ list, Queued session list) ?_ ?_ ?_
  · rintro session event ⟨list,queued⟩
    exact queued.wanted event
  · rintro session event session' ⟨list,queued⟩ stepped
    exact queued.next stepped
  · exact ⟨[],⟨List.nodup_nil,rfl⟩,Nat.le_refl 0,by simp,rfl⟩

end XivelyClient.RawInput
