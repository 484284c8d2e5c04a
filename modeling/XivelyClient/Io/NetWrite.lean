import XivelyClient.Lib.Runs
import XivelyClient.State

/-! The write of a buffer to the socket (`xi_io_net_layer_push`), which the socket may take in pieces. Where it is busy the function
registers itself as the handler of the socket, and is called again with the same buffer. -/
namespace XivelyClient.NetWrite

/-- What `xi_bsp_io_net_write` answers. -/
inductive Answer
  | ok (len : Nat)
  | busy
  | connectionReset
  | error
  deriving DecidableEq, Repr

def Answer.failed : Answer → Bool
  | .connectionReset | .error => true
  | .ok _ | .busy => false

/-- `writing` is between two answers inside of the loop, `waiting` behind a return that left the handler with the socket. -/
inductive Phase
  | writing | waiting | ended
  deriving DecidableEq, Repr

/-- The layer, its buffer, and what was seen from outside: the bytes that the socket took, how often the buffer was freed and WRITTEN was
reported, and the states of the closes. -/
structure Layer where
  bytes : List UInt8
  capacity : UInt32
  currPos : UInt32 := 0
  operational : Bool := true
  registered : Bool := true
  phase : Phase := .writing
  accepted : List UInt8 := []
  freed : Nat := 0
  written : Nat := 0
  closes : List XiState := []

namespace Layer

/-- `xi_free_desc` -/
def freeDesc (layer : Layer) : Layer := {layer with freed := layer.freed + 1}

/-- `xi_io_net_layer_close_externally` unregisters the socket and drops the data of the layer. -/
def closeExternally (layer : Layer) (state : XiState) : Layer :=
  {layer with operational := false,registered := false,phase := .ended,closes := layer.closes ++ [state]}

/-- Behind the loop. -/
def finish (layer : Layer) : Layer := {layer.freeDesc with written := layer.written + 1,phase := .ended}

/-- From the entry of the function to its first write. -/
def push (layer : Layer) : Layer :=
  if !layer.operational then {layer.freeDesc with phase := .ended}
  else if 0 < layer.capacity then {layer with phase := .writing}
  else layer.finish

def left (layer : Layer) : UInt32 := layer.capacity - layer.currPos

/-- From the answer of one write to the next write, or to the return. -/
def answered (layer : Layer) : Answer → Layer
  | .busy =>
    if layer.registered then {layer with phase := .waiting}
    else layer.closeExternally .internalError
  | .connectionReset => layer.freeDesc.closeExternally .connectionResetByPeerError
  | .error => layer.freeDesc.closeExternally .socketWriteError
  | .ok len =>
    let layer := {layer with
      currPos := layer.currPos + UInt32.ofNat len
      accepted := layer.accepted ++ ((layer.bytes.drop layer.currPos.toNat).take len)}
    if 0 < layer.left then layer else layer.finish

/-- A write that waits is entered again when the socket is ready. -/
def step (layer : Layer) (answer : Answer) : Layer :=
  match layer.phase with
  | .ended => layer
  | .waiting => layer.push.answered answer
  | .writing => layer.answered answer

/-- A write takes some of what is left. Behind the end nothing is asked. -/
def Asked (layer : Layer) (answer : Answer) : Prop :=
  layer.phase ≠ .ended ∧ ∀ len, answer = .ok len → 1 ≤ len ∧ len ≤ layer.left.toNat

/-- A buffer that is handed to a connected layer: its socket was registered by the connect. -/
def connected (bytes : List UInt8) : Layer := {bytes := bytes,capacity := UInt32.ofNat bytes.length}

end Layer

open Layer

/-- What the answers to the writes of a buffer lead to. -/
structure Complete (bytes : List UInt8) (answers : List Answer) (layer : Layer) : Prop where
  ordered : layer.accepted <+: bytes
  written : layer.written = if layer.accepted = bytes then 1 else 0
  freed : layer.freed = if layer.phase = .ended then 1 else 0
  ended : layer.phase = .ended ↔ layer.accepted = bytes ∨ ∃ answer ∈ answers, answer.failed = true

/-- A write that has not ended: some bytes are left, and those before them are with the socket. -/
structure Writing (bytes : List UInt8) (layer : Layer) : Prop where
  same : layer.bytes = bytes
  capacity : layer.capacity.toNat = bytes.length
  operational : layer.operational = true
  registered : layer.registered = true
  phase : layer.phase ≠ .ended
  inside : layer.currPos.toNat < bytes.length
  accepted : layer.accepted = bytes.take layer.currPos.toNat
  freed : layer.freed = 0
  written : layer.written = 0

section Steps

variable {bytes : List UInt8} {layer : Layer}

theorem Writing.left (writing : Writing bytes layer) : layer.left.toNat = bytes.length - layer.currPos.toNat := by
  rw [Layer.left,UInt32.toNat_sub_of_le _ _ (UInt32.le_iff_toNat_le.mpr (by rw [writing.capacity]; exact writing.inside.le)),writing.capacity]

theorem Writing.partly (writing : Writing bytes layer) : layer.accepted ≠ bytes := by
  intro all
  have length := congrArg List.length (writing.accepted.symm.trans all)
  rw [List.length_take_of_le writing.inside.le] at length
  exact absurd length writing.inside.ne

theorem Writing.ordered (writing : Writing bytes layer) : layer.accepted <+: bytes := by
  rw [writing.accepted]
  exact List.take_prefix _ _

/-- The entry of a write that waited goes back into the loop. -/
theorem Writing.push (writing : Writing bytes layer) : layer.push = {layer with phase := .writing} ∧ Writing bytes layer.push := by
  have some' : 0 < layer.capacity := by
    rw [UInt32.lt_iff_toNat_lt,writing.capacity]
    exact Nat.zero_lt_of_lt writing.inside
  have entered : layer.push = {layer with phase := .writing} := by
    rw [Layer.push,writing.operational,if_neg (by simp),if_pos some']
  rw [entered]
  exact ⟨rfl,writing.same,writing.capacity,writing.operational,writing.registered,by simp,writing.inside,writing.accepted,writing.freed,
    writing.written⟩

/-- How one answer goes: the write goes on, all has been taken, or it has failed. -/
inductive Outcome (bytes : List UInt8) (answer : Answer) (after : Layer) : Prop
  | more (writing : Writing bytes after) (sound : answer.failed = false)
  | done (phase : after.phase = .ended) (accepted : after.accepted = bytes) (freed : after.freed = 1) (written : after.written = 1)
    (sound : answer.failed = false)
  | broken (phase : after.phase = .ended) (ordered : after.accepted <+: bytes) (partly : after.accepted ≠ bytes) (freed : after.freed = 1)
    (written : after.written = 0) (failed : answer.failed = true)

theorem Writing.answered (writing : Writing bytes layer) {answer : Answer}
    (asked : ∀ len, answer = .ok len → 1 ≤ len ∧ len ≤ layer.left.toNat) : Outcome bytes answer (layer.answered answer) := by
  have freed : layer.freeDesc.freed = 1 := by rw [freeDesc,writing.freed]
  cases answer with
  | busy =>
    refine .more ?_ rfl
    rw [Layer.answered,if_pos writing.registered]
    exact ⟨writing.same,writing.capacity,writing.operational,writing.registered,by simp,writing.inside,writing.accepted,writing.freed,
      writing.written⟩
  | connectionReset => exact .broken rfl writing.ordered writing.partly freed writing.written rfl
  | error => exact .broken rfl writing.ordered writing.partly freed writing.written rfl
  | ok len =>
    obtain ⟨positive,bound⟩ := asked len rfl
    rw [writing.left] at bound
    have word := layer.capacity.toNat_lt
    rw [writing.capacity] at word
    have inside := writing.inside
    have position : (layer.currPos + UInt32.ofNat len).toNat = layer.currPos.toNat + len := by
      rw [UInt32.toNat_add,UInt32.toNat_ofNat',Nat.add_mod_mod]
      exact Nat.mod_eq_of_lt (by omega)
    have accepted : layer.accepted ++ (layer.bytes.drop layer.currPos.toNat).take len = bytes.take (layer.currPos.toNat + len) := by
      rw [writing.accepted,writing.same,List.take_add]
    have order : layer.currPos + UInt32.ofNat len ≤ layer.capacity := by
      rw [UInt32.le_iff_toNat_le,position,writing.capacity]
      omega
    let advanced : Layer := {layer with
      currPos := layer.currPos + UInt32.ofNat len
      accepted := layer.accepted ++ (layer.bytes.drop layer.currPos.toNat).take len}
    have rest : advanced.left.toNat = bytes.length - (layer.currPos.toNat + len) := by
      change (layer.capacity - (layer.currPos + UInt32.ofNat len)).toNat = _
      rw [UInt32.toNat_sub_of_le _ _ order,position,writing.capacity]
    change Outcome bytes (.ok len) (if 0 < advanced.left then advanced else advanced.finish)
    by_cases more : 0 < advanced.left
    · have below : layer.currPos.toNat + len < bytes.length := by
        rw [UInt32.lt_iff_toNat_lt,rest] at more
        exact Nat.lt_of_sub_pos more
      rw [if_pos more]
      have inside' : advanced.currPos.toNat < bytes.length := by rwa [position]
      have accepted' : advanced.accepted = bytes.take advanced.currPos.toNat := by rw [position,← accepted]
      exact .more ⟨writing.same,writing.capacity,writing.operational,writing.registered,writing.phase,inside',accepted',writing.freed,
        writing.written⟩ rfl
    · have all : bytes.length ≤ layer.currPos.toNat + len := by
        rw [UInt32.lt_iff_toNat_lt,rest] at more
        exact Nat.le_of_sub_eq_zero (Nat.eq_zero_of_not_pos more)
      rw [if_neg more]
      refine .done rfl ?_ freed ?_ rfl
      · change layer.accepted ++ _ = bytes
        rw [accepted,List.take_of_length_le all]
      · change layer.written + 1 = 1
        rw [writing.written]

theorem Writing.step (writing : Writing bytes layer) {answer : Answer} (asked : Asked layer answer) :
    Outcome bytes answer (layer.step answer) := by
  rw [Layer.step]
  split
  · rename_i ended
    exact absurd ended asked.1
  · obtain ⟨same,entered⟩ := writing.push
    refine entered.answered ?_
    rw [same]
    exact asked.2
  · exact writing.answered asked.2

/-- Behind the end no answer comes. -/
theorem admissible_ended {answers : List Answer} (ended : layer.phase = .ended)
    (admissible : Runs.Admissible Layer.step Asked layer answers) : answers = [] := by
  cases answers with
  | nil => rfl
  | cons answer answers => exact absurd ended admissible.1.1

theorem Writing.run (writing : Writing bytes layer) {answers : List Answer}
    (admissible : Runs.Admissible Layer.step Asked layer answers) : Complete bytes answers (Runs.final Layer.step layer answers) := by
  induction answers generalizing layer with
  | nil =>
    refine ⟨writing.ordered,?_,?_,iff_of_false writing.phase ?_⟩
    · rw [Runs.final_nil,if_neg writing.partly,writing.written]
    · rw [Runs.final_nil,if_neg writing.phase,writing.freed]
    · rintro (all | ⟨answer,member,_⟩)
      · exact writing.partly all
      · cases member
  | cons answer answers ih =>
    obtain ⟨asked,later⟩ := admissible
    rw [Runs.final_cons]
    cases writing.step asked with
    | more writing' sound =>
      have complete := ih writing' later
      refine ⟨complete.ordered,complete.written,complete.freed,complete.ended.trans (or_congr_right ?_)⟩
      rw [List.exists_mem_cons_iff,sound]
      simp
    | done phase accepted freed written sound =>
      obtain rfl := admissible_ended phase later
      rw [Runs.final_nil]
      exact ⟨accepted ▸ List.prefix_rfl,by rw [if_pos accepted,written],by rw [if_pos phase,freed],iff_of_true phase (.inl accepted)⟩
    | broken phase ordered partly freed written failed =>
      obtain rfl := admissible_ended phase later
      rw [Runs.final_nil]
      exact ⟨ordered,by rw [if_neg partly,written],by rw [if_pos phase,freed],
        iff_of_true phase (.inr ⟨answer,List.mem_cons_self,failed⟩)⟩

end Steps

end XivelyClient.NetWrite
