import XivelyClient.Io.Errors

/-! A read of a resource that comes in chunks. -/
namespace XivelyClient.ResourceManager

/-- The turns bring the content in consecutive chunks, the last of them with `XI_STATE_OK`. -/
structure Cut (content : List UInt8) (turns : List Turn) : Prop where
  chunks : (turns.map fun turn => turn.answer.buffer.getD []).flatten = content
  filled : ∀ turn ∈ turns, ∃ chunk, turn.answer.buffer = some chunk ∧ chunk ≠ []
  states : ∀ turn ∈ turns, turn.answer.state = .ok ∨ turn.answer.state = .wantRead
  last : ∀ turn, turns.getLast? = some turn → turn.answer.state = .ok

/-- The first turn comes from the queue, the others from the descriptor, and then the callback from the queue. -/
def readEvents : List Turn → List Event
  | [] => []
  | first :: rest => .handle first :: (rest.map .file ++ [.handle first])

/-- The whole content is there, the callback has been run once with `XI_STATE_OK`, and the descriptor is gone. -/
structure Complete (content : List UInt8) (fd : Int) (manager : Manager) : Prop where
  content : ∃ desc, manager.context.dataBuffer = some desc ∧ desc.data = content
  ran : manager.ran = [.ok]
  queue : manager.queue = []
  unregistered : fd ∉ manager.registered

/-- There is memory for the descriptor's entry, for the buffer (of its own where more than one chunk comes), and for the callback. -/
def Provided : List Turn → Prop
  | [] => True
  | first :: rest => first.register = true ∧ first.desc = true ∧ (rest = [] ∨ first.descBuffer = true) ∧
      ∀ turn, (first :: rest).getLast? = some turn → turn.execute = true

/-- A context that has been opened, and whose read has been accepted. -/
structure Opened (content : List UInt8) (manager : Manager) : Prop where
  started : manager.Started
  cs : manager.context.cs = .start
  dataBuffer : manager.context.dataBuffer = none
  resourceSize : manager.context.resourceSize = content.length

section Turns

variable {content done chunk : List UInt8} {fd : Int} {manager manager' : Manager} {turn : Turn} {others : List Int}

/-- So many bytes are in the buffer, which has room for all. -/
structure Reading (content done : List UInt8) (fd : Int) (others : List Int) (manager : Manager) : Prop where
  callback : manager.context.callback = some .ok
  handle : manager.context.resourceHandle = fd
  queue : manager.queue = []
  ran : manager.ran = []
  cs : manager.context.cs = .read
  size : manager.context.resourceSize = content.length
  offset : manager.context.dataOffset = done.length
  buffer : ∃ desc, manager.context.dataBuffer = some desc ∧ desc.data = done ∧ desc.capacity.toNat = content.length
  registered : manager.registered = others ++ [fd]

/-- The read has ended: its callback waits in the queue, or has been run for want of memory. -/
structure Finished (content : List UInt8) (others : List Int) (execute : Bool) (manager : Manager) : Prop where
  content : ∃ desc, manager.context.dataBuffer = some desc ∧ desc.data = content
  registered : manager.registered = others
  queue : manager.queue = if execute then [.callback .ok] else []
  ran : manager.ran = if execute then [] else [.outOfMemory]

theorem appendNext_fit (desc : DataDesc) (grow : Bool) (fit : desc.length + chunk.length ≤ desc.capacity.toNat) :
    ∃ desc', appendNext grow desc (some chunk) = some (.ok,desc') ∧ desc'.data = desc.data ++ chunk ∧ desc'.capacity = desc.capacity := by
  obtain ⟨desc',appended,data,capacity,_⟩ := DataDesc.appendDataResize_of_fit desc chunk fit
  have fits : desc.willItFit chunk.length = true := by
    have := desc.capacity.toNat_lt
    exact (DataDesc.willItFit_iff desc _).mpr (by omega)
  refine ⟨desc',?_,data,capacity⟩
  rw [appendNext,← appended,DataDesc.appendDataResize,DataDesc.appendDataResize,DataDesc.assureBufLen,DataDesc.assureBufLen,if_pos fits,
    if_pos fits]

theorem readPost_next {desc : DataDesc} (small : content.length < 2 ^ 32) (buffer : manager.context.dataBuffer = some desc)
    (data : desc.data = done) (capacity : desc.capacity.toNat = content.length) (size : manager.context.resourceSize = content.length)
    (offset : manager.context.dataOffset = done.length) (arrives : turn.answer.buffer = some chunk)
    (within : done.length + chunk.length ≤ content.length) {state : XiState} (fine : state = .ok ∨ state = .wantRead) :
    ∃ desc', desc'.data = done ++ chunk ∧ desc'.capacity.toNat = content.length ∧ readPost turn state manager = some (false,
      if done.length + chunk.length = content.length then state else .wantRead,
      {manager with context.dataOffset := done.length + chunk.length,context.dataBuffer := some desc'}) := by
  have fit : desc.length + chunk.length ≤ desc.capacity.toNat := by
    rw [DataDesc.length,data,capacity]
    exact within
  obtain ⟨desc',appended,data',capacity'⟩ := appendNext_fit desc turn.grow fit
  refine ⟨desc',by rw [data',data],by rw [capacity',capacity],?_⟩
  have moved : (manager.context.dataOffset + turn.answer.bufferSize) % 18446744073709551616 = done.length + chunk.length := by
    rw [offset,Answer.bufferSize,arrives]
    simp only
    omega
  have stored : ∀ state' : XiState, state' = .ok ∨ state' = .wantRead → ∀ context : Context, context.dataBuffer = some desc →
      accumulate turn state' context = some (false,state',{context with dataBuffer := some desc'}) := by
    intro state' fine' context there
    rw [accumulate,there]
    simp [fine'.symm,arrives,appended]
  by_cases whole : done.length + chunk.length = content.length
  · simp [readPost,moved,size,whole]
    exact stored state fine _ buffer
  · have waits : (if state = .ok then XiState.wantRead else state) = .wantRead := by
      rcases fine with rfl | rfl
      · rfl
      · rfl
    have less : done.length + chunk.length < content.length := by omega
    simp [readPost,moved,size,whole,waits,less]
    exact ⟨_,stored .wantRead (.inr rfl) _ buffer⟩

theorem readPost_first (small : content.length < 2 ^ 32) (buffer : manager.context.dataBuffer = none)
    (size : manager.context.resourceSize = content.length) (offset : manager.context.dataOffset = 0)
    (arrives : turn.answer.buffer = some chunk) (part : chunk.length < content.length) {state : XiState}
    (fine : state = .ok ∨ state = .wantRead) :
    if turn.desc && turn.descBuffer then
      ∃ desc, desc.data = chunk ∧ desc.capacity.toNat = content.length ∧ readPost turn state manager = some (false,.wantRead,
        {manager with context.dataOffset := chunk.length,context.dataBuffer := some desc})
    else readPost turn state manager = some (true,.outOfMemory,{manager with context.dataOffset := chunk.length}) := by
  have capacity : (UInt32.ofNat content.length).toNat = content.length := by
    rw [UInt32.toNat_ofNat']
    omega
  have moved : (manager.context.dataOffset + turn.answer.bufferSize) % 18446744073709551616 = chunk.length := by
    rw [offset,Answer.bufferSize,arrives]
    simp only
    omega
  have waits : (if state = .ok then XiState.wantRead else state) = .wantRead := by
    rcases fine with rfl | rfl
    · rfl
    · rfl
  obtain ⟨desc,appended,data,capacity'⟩ := DataDesc.appendBytes_of_fit (DataDesc.makeEmptyDescAlloc (UInt32.ofNat content.length)) chunk (by
    rw [DataDesc.length_makeEmptyDescAlloc,Nat.zero_add,DataDesc.makeEmptyDescAlloc,capacity]
    omega)
  have partial_ : ¬ chunk.length = content.length := by omega
  have nonzero : ¬ content.length = 0 := by omega
  split
  · rename_i room
    refine ⟨desc,by simpa [DataDesc.makeEmptyDescAlloc] using data,by rw [capacity',DataDesc.makeEmptyDescAlloc,capacity],?_⟩
    simp [readPost,moved,size,waits,accumulate,buffer,nonzero,room,arrives,appendFirst,appended,part,partial_]
  · rename_i lacks
    simp [readPost,moved,size,waits,accumulate,buffer,nonzero,lacks,partial_]

theorem readPost_whole (small : content.length < 2 ^ 32) (buffer : manager.context.dataBuffer = none)
    (size : manager.context.resourceSize = content.length) (offset : manager.context.dataOffset = 0)
    (arrives : turn.answer.buffer = some content) :
    if turn.desc then
      ∃ desc, desc.data = content ∧ readPost turn .ok manager = some (false,.ok,
        {manager with context.dataOffset := content.length,context.dataBuffer := some desc})
    else readPost turn .ok manager = some (true,.outOfMemory,{manager with context.dataOffset := content.length}) := by
  have moved : (manager.context.dataOffset + turn.answer.bufferSize) % 18446744073709551616 = content.length := by
    rw [offset,Answer.bufferSize,arrives]
    simp only
    omega
  split
  · rename_i room
    refine ⟨DataDesc.makeDescFromBufferShare content,?_,?_⟩
    · simp only [DataDesc.makeDescFromBufferShare,DataDesc.ofBytes,UInt32.toNat_ofNat',Nat.mod_eq_of_lt small]
      exact List.take_length
    · simp [readPost,moved,size,accumulate,buffer,room,arrives]
  · rename_i lacks
    simp [readPost,moved,size,accumulate,buffer,lacks,arrives]

/-- A turn that gets to the file system, by what its block comes to. -/
theorem readCoroutine_called (handle : manager.context.resourceHandle = fd) (calls : Calls fd .read manager turn) {jumps : Bool}
    {state : XiState} {after : Manager}
    (posted : readPost turn turn.answer.state (called (manager.context.cs = .read) turn.answer.state (resetOffset manager)) =
      some (jumps,state,after)) :
    readCoroutine turn manager = (match afterCall .read (jumps,state,after) with
      | .waiting manager => some manager
      | .failed state manager => some (fail false state manager)
      | .done manager => if manager.context.dataBuffer.isSome then some (invokeCallback false turn.execute manager) else none) := by
  have enters : decide (manager.context.cs = .read) = true ∨ (turn.register = true ∧ fd ∉ (resetOffset manager).registered) := by
    rw [resetOffset_eq]
    exact calls.imp decide_eq_true id
  have handle' : (resetOffset manager).context.resourceHandle = fd := by
    rw [resetOffset_eq]
    exact handle
  rw [readCoroutine,yieldFrom_called .read handle' enters,posted]
  rfl

/-- The last turn, behind whose block the whole content is in the buffer. -/
theorem finished_of_done {desc : DataDesc} (buffer : manager.context.dataBuffer = some desc) (data : desc.data = content)
    (callback : manager.context.callback = some .ok) (queue : manager.queue = []) (ran : manager.ran = [])
    (registered : manager.registered = others) (execute : Bool) :
    Finished content others execute (invokeCallback false execute manager) := by
  rw [invokeCallback,callback]
  cases execute with
  | true => exact ⟨⟨desc,buffer,data⟩,registered,by simp [queue,setCallbackState],ran⟩
  | false => exact ⟨⟨desc,buffer,data⟩,registered,queue,by simp [fail,ran,setCallbackState]⟩

theorem erase_registered (new : fd ∉ others) : (others ++ [fd]).erase fd = others := by
  rw [List.erase_append_right _ new]
  simp

theorem reading_next (reading : Reading content done fd others manager) (small : content.length < 2 ^ 32) (new : fd ∉ others)
    (arrives : turn.answer.buffer = some chunk) (fine : turn.answer.state = .ok ∨ turn.answer.state = .wantRead) :
    (done.length + chunk.length < content.length → ∃ manager', next .read fd manager (.file turn) = some manager' ∧
        Reading content (done ++ chunk) fd others manager') ∧
      (done ++ chunk = content → turn.answer.state = .ok → ∃ manager', next .read fd manager (.file turn) = some manager' ∧
        Finished content others turn.execute manager') := by
  obtain ⟨desc,buffer,data,capacity⟩ := reading.buffer
  have member : fd ∈ manager.registered := by simp [reading.registered]
  have invoked : next .read fd manager (.file turn) = readCoroutine turn manager := if_pos member
  have same : called (manager.context.cs = .read) turn.answer.state (resetOffset manager) =
      {manager with answers := manager.answers ++ [turn.answer.state]} := by
    rw [resetOffset,if_pos reading.cs,called]
    simp [reading.cs]
  have block := @readPost_next content done chunk {manager with answers := manager.answers ++ [turn.answer.state]} turn desc small buffer data
    capacity reading.size reading.offset arrives
  rw [invoked]
  constructor
  · intro less
    obtain ⟨desc',data',capacity',posted⟩ := block (by omega) fine
    rw [if_neg (by omega)] at posted
    rw [readCoroutine_called reading.handle (.inl reading.cs) (by rw [same]; exact posted),afterCall]
    exact ⟨_,rfl,reading.callback,reading.handle,reading.queue,reading.ran,rfl,reading.size,by simp,⟨desc',rfl,data',capacity'⟩,
      reading.registered⟩
  · intro whole ok
    have length : done.length + chunk.length = content.length := by rw [← whole,List.length_append]
    obtain ⟨desc',data',_,posted⟩ := block (by omega) fine
    rw [if_pos length] at posted
    rw [readCoroutine_called reading.handle (.inl reading.cs) (by rw [same]; exact posted),afterCall,ok]
    have gone : manager.registered.erase manager.context.resourceHandle = others := by
      rw [reading.registered,reading.handle,erase_registered new]
    refine ⟨_,rfl,finished_of_done ?_ (data'.trans whole) ?_ ?_ ?_ ?_ _⟩
    · rfl
    · exact reading.callback
    · exact reading.queue
    · exact reading.ran
    · exact gone

def asked (fd : Int) (state : XiState) (manager : Manager) : Manager where
  context := {manager.context with dataOffset := 0}
  registered := manager.registered ++ [fd]
  ran := manager.ran
  answers := manager.answers ++ [state]

/-- The first turn: it reads all, or the first of several chunks, or there is no memory. -/
theorem opened_next (opened : Opened content manager) (small : content.length < 2 ^ 32) (handle : manager.context.resourceHandle = fd)
    (arrives : turn.answer.buffer = some chunk) (fine : turn.answer.state = .ok ∨ turn.answer.state = .wantRead) :
    (chunk.length < content.length → if turn.register && turn.desc && turn.descBuffer then
        ∃ manager', next .read fd manager (.handle turn) = some manager' ∧ Reading content chunk fd manager.registered manager'
      else ∃ manager', next .read fd manager (.handle turn) = some manager' ∧ manager'.ran = [.outOfMemory]) ∧
      (chunk = content → turn.answer.state = .ok → if turn.register && turn.desc then
          ∃ manager', next .read fd manager (.handle turn) = some manager' ∧ Finished content manager.registered turn.execute manager'
        else ∃ manager', next .read fd manager (.handle turn) = some manager' ∧ manager'.ran = [.outOfMemory]) := by
  obtain ⟨⟨callback,queue,ran,new⟩,cs,buffer,size⟩ := opened
  rw [handle] at new
  have invoked : next .read fd manager (.handle turn) = readCoroutine turn {manager with queue := []} := by
    rw [next,queue]
    rfl
  have fresh : ¬ manager.context.cs = .read := by simp [cs]
  by_cases register : turn.register = true
  · have calls : Calls fd .read {manager with queue := []} turn := .inr ⟨register,new⟩
    have same : called (manager.context.cs = .read) turn.answer.state (resetOffset {manager with queue := []}) =
        asked fd turn.answer.state manager := by
      rw [resetOffset,if_neg fresh,called,asked]
      simp [cs,handle]
    have turns := @readCoroutine_called fd {manager with queue := []} turn handle calls
    rw [same] at turns
    rw [invoked,register]
    constructor
    · intro part
      have block := @readPost_first content chunk (asked fd turn.answer.state manager) turn small buffer size rfl arrives part turn.answer.state fine
      rw [Bool.true_and]
      split
      · rename_i room
        rw [if_pos room] at block
        obtain ⟨desc,data,capacity,posted⟩ := block
        rw [turns posted,afterCall]
        exact ⟨_,rfl,callback,handle,rfl,ran,rfl,size,rfl,⟨desc,rfl,data,capacity⟩,rfl⟩
      · rename_i lacks
        rw [if_neg lacks] at block
        rw [turns block,afterCall]
        exact ⟨_,rfl,by simp [fail,asked,ran,callback,setCallbackState]⟩
    · rintro rfl ok
      have block := @readPost_whole chunk (asked fd turn.answer.state manager) turn small buffer size rfl arrives
      rw [Bool.true_and]
      split
      · rename_i room
        rw [if_pos room] at block
        obtain ⟨desc,data,posted⟩ := block
        have gone : (manager.registered ++ [fd]).erase manager.context.resourceHandle = manager.registered := by
          rw [handle,erase_registered new]
        rw [ok] at turns posted
        rw [turns posted,afterCall]
        refine ⟨_,rfl,finished_of_done ?_ data ?_ ?_ ?_ ?_ _⟩
        · rfl
        · exact callback
        · rfl
        · exact ran
        · exact gone
      · rename_i lacks
        rw [if_neg lacks] at block
        rw [ok] at turns block
        rw [turns block,afterCall]
        exact ⟨_,rfl,by simp [fail,asked,ran,callback,setCallbackState]⟩
  · have refused : ∃ manager', next .read fd manager (.handle turn) = some manager' ∧ manager'.ran = [.outOfMemory] := by
      rw [invoked,readCoroutine,yieldFrom]
      refine ⟨fail false .outOfMemory (resetOffset {manager with queue := []}),?_,?_⟩
      · simp [cs,resetOffset,handle,registerFileFd,new,register]
      · simp [resetOffset,cs,fail,ran,callback,setCallbackState]
    have lacks : turn.register = false := by simpa using register
    simp only [lacks,Bool.false_and,Bool.false_eq_true,if_false]
    exact ⟨fun _ => refused,fun _ _ => refused⟩

/-- The turns from the descriptor, by induction on those that are left. -/
theorem reading_run (small : content.length < 2 ^ 32) (new : fd ∉ others) {rest : List Turn} {done : List UInt8} {manager : Manager}
    (reading : Reading content done fd others manager) (some_ : rest ≠ [])
    (chunks : done ++ (rest.map fun turn => turn.answer.buffer.getD []).flatten = content)
    (filled : ∀ turn ∈ rest, ∃ chunk, turn.answer.buffer = some chunk ∧ chunk ≠ [])
    (states : ∀ turn ∈ rest, turn.answer.state = .ok ∨ turn.answer.state = .wantRead)
    (last : ∀ turn, rest.getLast? = some turn → turn.answer.state = .ok) (after : List Event) :
    ∃ turn manager', rest.getLast? = some turn ∧ run .read fd (rest.map .file ++ after) manager = run .read fd after manager' ∧
      Finished content others turn.execute manager' := by
  induction rest generalizing done manager with
  | nil => exact absurd rfl some_
  | cons turn rest ih =>
    obtain ⟨chunk,arrives,_⟩ := filled turn List.mem_cons_self
    obtain ⟨waits,ends⟩ := reading_next reading small new arrives (states turn List.mem_cons_self)
    rw [List.map_cons,List.flatten_cons,arrives,Option.getD_some,← List.append_assoc] at chunks
    cases rest with
    | nil =>
      obtain ⟨manager',stepped,finished⟩ := ends (by simpa using chunks) (last turn rfl)
      exact ⟨turn,manager',rfl,by simp [run,stepped],finished⟩
    | cons second others_ =>
      have less : done.length + chunk.length < content.length := by
        obtain ⟨more,arrives',nonempty⟩ := filled second (by simp)
        have positive := List.length_pos_iff.mpr nonempty
        rw [← chunks,List.map_cons,List.flatten_cons,arrives']
        simp only [List.length_append,Option.getD_some]
        omega
      obtain ⟨manager',stepped,reading'⟩ := waits less
      obtain ⟨final,manager'',isLast,ran,finished⟩ := ih reading' (by simp) chunks (fun t member => filled t (List.mem_cons_of_mem _ member))
        (fun t member => states t (List.mem_cons_of_mem _ member)) (fun t isLast => last t (by rw [List.getLast?_cons_cons]; exact isLast))
      refine ⟨final,manager'',by rw [List.getLast?_cons_cons]; exact isLast,?_,finished⟩
      rw [List.map_cons,List.cons_append,run,stepped]
      exact ran

theorem Finished.complete {execute : Bool} (finished : Finished content others execute manager) (new : fd ∉ others) (turn : Turn) :
    ∃ manager', run .read fd [.handle turn] manager = some manager' ∧ (execute = true → Complete content fd manager') ∧
      (execute = false → manager'.ran = [.outOfMemory]) := by
  obtain ⟨held,registered,queue,ran⟩ := finished
  cases execute with
  | true =>
    refine ⟨{manager with queue := [],ran := manager.ran ++ [.ok]},by simp [run,next,queue],?_,by simp⟩
    exact fun _ => ⟨held,by simp [ran],rfl,by rw [registered]; exact new⟩
  | false =>
    refine ⟨manager,by simp [run,next,queue],by simp,fun _ => ran⟩

theorem next_ran {event : Event} (stepped : next .read fd manager event = some manager') : manager.ran <+: manager'.ran := by
  have coroutine : ∀ {manager : Manager} {turn : Turn}, readCoroutine turn manager = some manager' → manager.ran <+: manager'.ran := by
    intro manager turn invoked
    obtain ⟨yield,yielded,rest⟩ := Option.bind_eq_some_iff.mp invoked
    have kept := (yieldFrom_callback (readPost_local turn) yielded).2
    have reset : (resetOffset manager).ran = manager.ran := by rw [resetOffset_eq]
    rw [reset] at kept
    cases yield with
    | waiting after =>
      obtain rfl := Option.some.inj rest
      exact kept ▸ List.prefix_refl _
    | failed state after =>
      obtain rfl := Option.some.inj rest
      exact kept ▸ List.prefix_append _ _
    | done after =>
      simp only at rest
      split at rest
      · obtain rfl := Option.some.inj rest
        rw [← kept,invokeCallback]
        split
        · exact List.prefix_append _ _
        · split
          · exact List.prefix_refl _
          · exact List.prefix_append _ _
      · cases rest
  cases event with
  | handle turn =>
    simp only [next] at stepped
    split at stepped
    · exact Option.some.inj stepped ▸ List.prefix_refl _
    · exact Option.some.inj stepped ▸ List.prefix_append _ _
    · rename_i queue _
      exact @coroutine {manager with queue} turn stepped
  | file turn =>
    simp only [next] at stepped
    split at stepped
    · exact coroutine stepped
    · exact Option.some.inj stepped ▸ List.prefix_refl _

theorem run_ran {events : List Event} {manager : Manager} (ran : run .read fd events manager = some manager') :
    manager.ran <+: manager'.ran := by
  induction events generalizing manager with
  | nil => exact Option.some.inj ran ▸ List.prefix_refl _
  | cons event events ih =>
    obtain ⟨between,stepped,rest⟩ := Option.bind_eq_some_iff.mp ran
    exact (next_ran stepped).trans (ih rest)

theorem incomplete {events : List Event} (lacks : manager.ran = [.outOfMemory]) (ran : run .read fd events manager = some manager') :
    ¬ Complete content fd manager' := by
  intro complete
  have start := run_ran ran
  rw [lacks,complete.ran] at start
  simp at start

theorem finished_iff {execute : Bool} (finished : Finished content others execute manager) (new : fd ∉ others) (turn : Turn) :
    (∃ manager', run .read fd [.handle turn] manager = some manager' ∧ Complete content fd manager') ↔ execute = true := by
  obtain ⟨after,ran,whole,lacks⟩ := finished.complete new turn
  cases execute with
  | true => exact iff_of_true ⟨after,ran,whole rfl⟩ rfl
  | false =>
    refine iff_of_false ?_ Bool.false_ne_true
    rintro ⟨manager',ran',complete⟩
    obtain rfl := Option.some.inj (ran.symm.trans ran')
    have ends := complete.ran
    rw [lacks rfl] at ends
    simp at ends

theorem lost_iff {event : Event} {events : List Event} {provided : Prop}
    (lost : ∃ manager', next .read fd manager event = some manager' ∧ manager'.ran = [.outOfMemory]) (lacks : ¬ provided) :
    (∃ manager', run .read fd (event :: events) manager = some manager' ∧ Complete content fd manager') ↔ provided := by
  refine iff_of_false ?_ lacks
  rintro ⟨manager',ran,complete⟩
  obtain ⟨between,stepped,oom⟩ := lost
  rw [run,stepped] at ran
  exact incomplete oom ran complete

end Turns

/-- A read of a content in chunks completes exactly if the content has less than `2 ^ 32` bytes and there is memory for it. -/
theorem read_complete_iff {content : List UInt8} {turns : List Turn} {manager : Manager} (opened : Opened content manager)
    (nonempty : content ≠ []) (cut : Cut content turns) :
    (∃ manager', run .read manager.context.resourceHandle (readEvents turns) manager = some manager' ∧
        Complete content manager.context.resourceHandle manager') ↔ content.length < 2 ^ 32 ∧ Provided turns := by
  by_cases small : content.length < 2 ^ 32
  · have new : manager.context.resourceHandle ∉ manager.registered := opened.started.2.2.2
    rw [and_iff_right small]
    cases turns with
    | nil => exact absurd cut.chunks.symm nonempty
    | cons first rest =>
      obtain ⟨chunk,arrives,_⟩ := cut.filled first List.mem_cons_self
      obtain ⟨part,whole⟩ := opened_next opened small rfl arrives (cut.states first List.mem_cons_self)
      have chunks := cut.chunks
      rw [List.map_cons,List.flatten_cons,arrives,Option.getD_some] at chunks
      cases rest with
      | nil =>
        have turned := whole (by simpa using chunks) (cut.last first rfl)
        have provided : Provided [first] ↔ (first.register && first.desc) = true ∧ first.execute = true := by
          simp [Provided,and_assoc]
        rw [provided]
        split at turned
        · rename_i room
          obtain ⟨after,stepped,finished⟩ := turned
          rw [and_iff_right room,← finished_iff finished new first]
          simp only [readEvents,List.map_nil,List.nil_append,run,stepped,Option.bind_some]
        · rename_i lacks
          exact lost_iff turned fun both => lacks both.1
      | cons second others =>
        have less : chunk.length < content.length := by
          obtain ⟨more,arrives',filled⟩ := cut.filled second (by simp)
          have positive := List.length_pos_iff.mpr filled
          rw [← chunks,List.map_cons,List.flatten_cons,arrives']
          simp only [List.length_append,Option.getD_some]
          omega
        have turned := part less
        have provided : Provided (first :: second :: others) ↔ (first.register && first.desc && first.descBuffer) = true ∧
            ∀ turn, (second :: others).getLast? = some turn → turn.execute = true := by
          simp only [Provided,List.getLast?_cons_cons]
          simp [and_assoc]
        rw [provided]
        split at turned
        · rename_i room
          obtain ⟨after,stepped,reading⟩ := turned
          obtain ⟨final,ended,isLast,ran,finished⟩ := reading_run small new reading (by simp) chunks
            (fun t member => cut.filled t (List.mem_cons_of_mem _ member)) (fun t member => cut.states t (List.mem_cons_of_mem _ member))
            (fun t isLast => cut.last t (by rw [List.getLast?_cons_cons]; exact isLast)) [.handle first]
          have last : (∀ turn, (second :: others).getLast? = some turn → turn.execute = true) ↔ final.execute = true := by
            simp only [isLast,Option.some_inj,forall_eq']
          rw [and_iff_right room,last,← finished_iff finished new first]
          simp only [readEvents,run,stepped,Option.bind_some,ran]
        · rename_i lacks
          exact lost_iff turned fun both => lacks both.1
  · refine iff_of_false ?_ fun both => small both.1
    rintro ⟨manager',_,complete⟩
    obtain ⟨desc,_,rfl⟩ := complete.content
    exact small desc.length_lt

def accepted (size : Nat) : Manager := {context := {callback := some .ok,resourceSize := size,resourceHandle := 3},queue := [.coroutine]}

theorem read_complete_two : ∃ manager', run .read 3
    (readEvents [{answer := {state := .wantRead,buffer := some [1]}},{answer := {state := .ok,buffer := some [2,3]}}]) (accepted 3) =
      some manager' ∧ Complete [1,2,3] 3 manager' := by
  apply (@read_complete_iff [1,2,3] [{answer := {state := .wantRead,buffer := some [1]}},{answer := {state := .ok,buffer := some [2,3]}}]
    (accepted 3) ⟨⟨rfl,rfl,rfl,by decide⟩,rfl,rfl,rfl⟩ (by simp) ⟨rfl,by simp,by simp,by simp⟩).mpr
  exact ⟨by decide,rfl,rfl,.inr rfl,by simp⟩

theorem not_complete_of_long {content : List UInt8} (long : 2 ^ 32 ≤ content.length) : ¬ ∀ (turns : List Turn) (manager : Manager),
    Opened content manager → content ≠ [] → Cut content turns → Provided turns →
      ∃ manager', run .read manager.context.resourceHandle (readEvents turns) manager = some manager' ∧
        Complete content manager.context.resourceHandle manager' := by
  intro claim
  have nonempty : content ≠ [] := by
    rintro rfl
    exact absurd long (by decide)
  obtain ⟨manager',_,complete⟩ := claim [{answer := {state := .ok,buffer := some content}}] (accepted content.length)
    ⟨⟨rfl,rfl,rfl,by simp [accepted]⟩,rfl,rfl,rfl⟩ nonempty ⟨by simp,by simp [nonempty],by simp,by simp⟩ ⟨rfl,rfl,.inl rfl,by simp⟩
  obtain ⟨desc,_,rfl⟩ := complete.content
  exact absurd desc.length_lt (Nat.not_lt_of_le long)

theorem read_too_long : ¬ ∀ (content : List UInt8) (turns : List Turn) (manager : Manager), Opened content manager → content ≠ [] →
    Cut content turns → Provided turns →
      ∃ manager', run .read manager.context.resourceHandle (readEvents turns) manager = some manager' ∧
        Complete content manager.context.resourceHandle manager' := by
  intro claim
  apply not_complete_of_long (Nat.le_of_eq (@List.length_replicate _ (2 ^ 32) (0 : UInt8)).symm)
  intro turns manager
  exact claim (List.replicate (2 ^ 32) 0) turns manager

end XivelyClient.ResourceManager
