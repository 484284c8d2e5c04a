import XivelyClient.Datastructures.Handle

/-! Contexts and what they share (`xively.c`): the counter of the contexts, the dispatcher, the tables of the backoff, the handles and
the timed tasks. -/
namespace XivelyClient.Contexts

open Handle

/-- `xi_globals`, as far as it is counted by contexts: whether each part exists. -/
structure Globals where
  globalsRefCount : UInt8 := 0
  evtdInstance : Bool := false
  backoffLut : Bool := false
  decayLut : Bool := false
  contextHandlesVector : Option (XiVector (Option Nat)) := none
  timedTasksContainer : Bool := false

/-- The allocations of a creation, in their order. `layers` are those of the chain, one for each layer. -/
structure Allocs where
  evtd : Bool := true
  backoffLut : Bool := true
  decayLut : Bool := true
  handles : Bool := true
  handlesArray : Bool := true
  timedTasks : Bool := true
  context : Bool := true
  ioTimeouts : Bool := true
  layers : Bool := true
  register : Bool := true

/-- What the first context creates. The state of the backoff is not kept, and two of the results are not asked for. -/
def createGlobals (globals : Globals) (allocs : Allocs) : Option XiState × Globals :=
  let globals := {globals with
    evtdInstance := allocs.evtd
    backoffLut := allocs.backoffLut
    decayLut := allocs.backoffLut && allocs.decayLut}
  if !(allocs.backoffLut && allocs.decayLut) then (some .ok,globals)
  else if !allocs.evtd then (some .outOfMemory,globals)
  else (none,{globals with
    contextHandlesVector := (XiVector.create allocs.handles allocs.handlesArray).join
    timedTasksContainer := allocs.timedTasks})

/-- `xi_create_context_with_custom_layers_and_evtd`: the counter comes first. A vector that is `NULL` fails an assertion, and a layer that
is `NULL` is connected to its neighbour all the same. -/
def createContextWithCustomLayersAndEvtd (maxNumContexts : Int32) (globals : Globals) (initialized : Bool) (allocs : Allocs) (address : Nat) :
    Option (XiState × Option Nat × Globals) :=
  if !initialized then some (.notInitialized,none,globals)
  else
    let globals := {globals with globalsRefCount := globals.globalsRefCount + 1}
    let (jumps,globals) := if globals.globalsRefCount = 1 then createGlobals globals allocs else (none,globals)
    match jumps with
    | some state => some (state,none,globals)
    | none =>
      if !(allocs.context && allocs.ioTimeouts) then some (.outOfMemory,none,globals)
      else if !allocs.layers then none
      else globals.contextHandlesVector.bind fun vector =>
        (registerHandleForObject vector maxNumContexts (some address) allocs.register).map fun (state,vector) =>
          (state,if state = .ok then some address else none,{globals with contextHandlesVector := some vector})

/-- `xi_create_context` -/
def createContext (maxNumContexts : Int32) (globals : Globals) (initialized : Bool) (allocs : Allocs) (address : Nat) :
    Option (Except XiState Int × Globals) :=
  (createContextWithCustomLayersAndEvtd maxNumContexts globals initialized allocs address).bind fun (state,context,globals) =>
    if state = .ok then
      globals.contextHandlesVector.bind fun vector =>
        (findHandleForObject vector context).map fun (state,handle) => (if state = .ok then .ok handle else .error state,globals)
    else some (.error state,globals)

/-- `xi_delete_context`, which asserts that there is a context for the handle. -/
def deleteContext (globals : Globals) (contextHandle : Int32) : Option (XiState × Globals) :=
  globals.contextHandlesVector.bind fun vector =>
    (objectForHandle vector contextHandle).join.bind fun context =>
      (deleteHandleForObject vector (some context)).map fun (state,vector) =>
        if state ≠ .ok then (.elementNotFound,{globals with contextHandlesVector := some vector})
        else
          let globals := {globals with globalsRefCount := globals.globalsRefCount - 1,contextHandlesVector := some vector}
          (.ok,if globals.globalsRefCount = 0 then {globals with
              evtdInstance := false
              backoffLut := false
              decayLut := false
              contextHandlesVector := none
              timedTasksContainer := false}
            else globals)

inductive Event
  | create (initialized : Bool) (allocs : Allocs) (address : Nat)
  | delete (contextHandle : Int32)

/-- The globals beside the live contexts with their handles. -/
structure Registry where
  globals : Globals := {}
  live : Live Nat := []

def Registry.create (contexts : Registry) (address : Nat) : Except XiState Int × Globals → Registry
  | (.ok handle,globals) => ⟨globals,(address,handle) :: contexts.live⟩
  | (.error _,globals) => ⟨globals,contexts.live⟩

/-- Memory that is live is not given again, and only live contexts are deleted. -/
def next (maxNumContexts : Int32) (contexts : Registry) : Event → Option Registry
  | .create initialized allocs address =>
    if address ∈ contexts.live.map Prod.fst then none
    else (createContext maxNumContexts contexts.globals initialized allocs address).map (contexts.create address)
  | .delete contextHandle =>
    if contextHandle.toInt ∈ contexts.live.map Prod.snd then
      (deleteContext contexts.globals contextHandle).map fun (_,globals) =>
        ⟨globals,contexts.live.filter fun entry => entry.2 ≠ contextHandle.toInt⟩
    else none

/-- The counter counts the live contexts, and what they share exists if there are any. -/
structure Counted (contexts : Registry) : Prop where
  refCount : contexts.globals.globalsRefCount.toNat = contexts.live.length
  evtdInstance : contexts.globals.evtdInstance = true ↔ 0 < contexts.live.length
  backoffLut : contexts.globals.backoffLut = true ↔ 0 < contexts.live.length
  decayLut : contexts.globals.decayLut = true ↔ 0 < contexts.live.length
  contextHandlesVector : contexts.globals.contextHandlesVector.isSome = true ↔ 0 < contexts.live.length
  timedTasksContainer : contexts.globals.timedTasksContainer = true ↔ 0 < contexts.live.length

/-- A step keeps the count, and a creation that fails changes nothing. -/
def Wanted (maxNumContexts : Int32) (contexts : Registry) : Event → Prop
  | .create initialized allocs address => address ∉ contexts.live.map Prod.fst →
      ∃ answer, createContext maxNumContexts contexts.globals initialized allocs address = some answer ∧
        Counted (contexts.create address answer) ∧ ∀ state, answer.1 = .error state → answer.2 = contexts.globals
  | .delete contextHandle => contextHandle.toInt ∈ contexts.live.map Prod.snd →
      ∃ globals, deleteContext contexts.globals contextHandle = some (.ok,globals) ∧
        Counted ⟨globals,contexts.live.filter fun entry => entry.2 ≠ contextHandle.toInt⟩

/-- There is a slot for one more handle, or a new one below the limit. -/
def Slot (maxNumContexts : Int32) (vector : XiVector (Option Nat)) (alloc : Bool) : Prop :=
  none ∈ vector.contents ∨ (vector.elemNo < maxNumContexts.toInt ∧ vector.Room alloc)

/-- Nothing lacks that a creation needs. -/
def Supplied (maxNumContexts : Int32) (contexts : Registry) : Event → Prop
  | .create initialized allocs address => address ∉ contexts.live.map Prod.fst → initialized = true →
      allocs.context = true ∧ allocs.ioTimeouts = true ∧ allocs.layers = true ∧
        match contexts.globals.contextHandlesVector with
        | some vector => Slot maxNumContexts vector allocs.register
        | none => allocs.evtd = true ∧ allocs.backoffLut = true ∧ allocs.decayLut = true ∧ allocs.handles = true ∧
            allocs.handlesArray = true ∧ allocs.timedTasks = true ∧ 0 < maxNumContexts.toInt
  | .delete _ => True

section Slots

variable {vector : XiVector (Option Nat)} {live : Live Nat} {maxNumContexts : Int32} {alloc : Bool} {address : Nat}

theorem live_le (agrees : Agrees vector live) : live.length ≤ 127 := by
  have inside : vector.elemNo ≤ vector.array.length := agrees.sound.within.trans agrees.sound.whole.le
  have fits := agrees.length_le
  rw [XiVector.contents_length inside] at fits
  have top := agrees.sound.within.trans agrees.sound.byte
  omega

/-- Without a slot, no handle is found after the registration. -/
theorem slot_of_found (agrees : Agrees vector live) (fresh : address ∉ live.map Prod.fst) {vector' : XiVector (Option Nat)} {handle : Int}
    (registered : registerHandleForObject vector maxNumContexts (some address) alloc = some (.ok,vector'))
    (found : findHandleForObject vector' (some address) = some (.ok,handle)) : Slot maxNumContexts vector alloc := by
  by_contra lacks
  obtain ⟨full,below⟩ := not_or.mp lacks
  by_cases limit : maxNumContexts.toInt ≤ vector.elemNo
  · rcases find_cases agrees.sound none with ⟨missing,_⟩ | ⟨n,_,empty,_⟩
    · rw [registerHandleForObject,missing,Option.bind_some,if_pos (by omega),if_pos limit] at registered
      simp at registered
    · exact full (List.mem_of_getElem? empty)
  · have tight : ¬ vector.Room alloc := fun room => below ⟨by omega,room⟩
    obtain rfl : vector = vector' := by
      simpa using (register_unserved agrees full (by omega) tight).symm.trans registered
    have missing := agrees.find_missing fresh
    simp [missing] at found

theorem registered_of_slot (agrees : Agrees vector live) (fresh : address ∉ live.map Prod.fst) (slot : Slot maxNumContexts vector alloc) :
    ∃ (vector' : XiVector (Option Nat)) (handle : Int),
      registerHandleForObject vector maxNumContexts (some address) alloc = some (.ok,vector') ∧
        findHandleForObject vector' (some address) = some (.ok,handle) ∧ Agrees vector' ((address,handle) :: live) := by
  have served : Served (vector,live) (.register maxNumContexts address alloc) := by
    intro _ full _
    exact (slot.resolve_left full).2
  obtain ⟨answer,vector',registered,⟨rfl,n,agrees'⟩ | ⟨refused,_⟩⟩ := register_done agrees fresh served
  · exact ⟨vector',n,registered,agrees'.find_live List.mem_cons_self,agrees'⟩
  · refine absurd ?_ refused
    rcases find_cases agrees.sound none with ⟨missing,full⟩ | ⟨n,found,_,below⟩
    · obtain ⟨limit,room⟩ := slot.resolve_left full
      obtain ⟨_,pushed,_⟩ := XiVector.push_done agrees.sound (some address) room
      rw [registerHandleForObject,missing,Option.bind_some,if_pos (by omega),if_neg (by omega),pushed,Option.map_some] at registered
      simp_all
    · obtain ⟨_,written,_⟩ := write_slot agrees.sound below (some address)
      rw [registerHandleForObject,found,Option.bind_some,if_neg (by omega),written,Option.map_some] at registered
      simp_all

end Slots

section Creation

variable {maxNumContexts : Int32} {globals globals' : Globals} {allocs : Allocs} {address : Nat}

def Globals.counted (globals : Globals) : Globals := {globals with globalsRefCount := globals.globalsRefCount + 1}

/-- The counting and the creation of what is shared. -/
def started (globals : Globals) (allocs : Allocs) : Option XiState × Globals :=
  if globals.counted.globalsRefCount = 1 then createGlobals globals.counted allocs else (none,globals.counted)

theorem createGlobals_refCount (globals : Globals) (allocs : Allocs) :
    (createGlobals globals allocs).2.globalsRefCount = globals.globalsRefCount := by
  rw [createGlobals]
  split
  · rfl
  · split <;> rfl

theorem createGlobals_stopped {state : XiState} (stopped : (createGlobals globals allocs).1 = some state) :
    (createGlobals globals allocs).2.contextHandlesVector = globals.contextHandlesVector := by
  rw [createGlobals] at stopped ⊢
  split
  · rfl
  · split
    · rfl
    · simp_all

theorem createGlobals_done {shared : Globals} (done : createGlobals globals allocs = (none,shared)) :
    allocs.evtd = true ∧ allocs.backoffLut = true ∧ allocs.decayLut = true ∧
      shared = {globals with
        evtdInstance := true
        backoffLut := true
        decayLut := true
        contextHandlesVector := (XiVector.create allocs.handles allocs.handlesArray).join
        timedTasksContainer := allocs.timedTasks} := by
  rw [createGlobals] at done
  split at done
  · simp at done
  · split at done
    · simp at done
    · simp_all

theorem started_refCount (globals : Globals) (allocs : Allocs) :
    (started globals allocs).2.globalsRefCount = globals.globalsRefCount + 1 := by
  rw [started]
  split
  · exact createGlobals_refCount globals.counted allocs
  · rfl

theorem started_stopped (clean : globals.counted.globalsRefCount = 1 → globals.contextHandlesVector = none) {state : XiState}
    (stopped : started globals allocs = (some state,globals')) : globals'.contextHandlesVector = none := by
  rw [started] at stopped
  split at stopped
  · rename_i first
    have same : (createGlobals globals.counted allocs).2.contextHandlesVector = globals.counted.contextHandlesVector :=
      createGlobals_stopped (by rw [stopped])
    rw [stopped] at same
    exact same.trans (clean first)
  · simp at stopped

theorem createInner_eq : createContextWithCustomLayersAndEvtd maxNumContexts globals true allocs address =
    match started globals allocs with
    | (some state,shared) => some (state,none,shared)
    | (none,shared) =>
      if !(allocs.context && allocs.ioTimeouts) then some (.outOfMemory,none,shared)
      else if !allocs.layers then none
      else shared.contextHandlesVector.bind fun vector =>
        (registerHandleForObject vector maxNumContexts (some address) allocs.register).map fun (state,vector) =>
          (state,if state = .ok then some address else none,{shared with contextHandlesVector := some vector}) := by
  generalize start : started globals allocs = outcome
  unfold started Globals.counted at start
  rw [createContextWithCustomLayersAndEvtd,if_neg (by simp)]
  dsimp only at start ⊢
  rw [start]
  obtain ⟨jumps,shared⟩ := outcome
  cases jumps <;> rfl

/-- A creation that has a result has been counted, and says that it is done with no context or with one that has been registered. -/
theorem createInner_cases {state : XiState} {context : Option Nat}
    (made : createContextWithCustomLayersAndEvtd maxNumContexts globals true allocs address = some (state,context,globals')) :
    globals'.globalsRefCount = globals.globalsRefCount + 1 ∧
      (state = .ok → started globals allocs = (some .ok,globals') ∨
        (context = some address ∧ allocs.context = true ∧ allocs.ioTimeouts = true ∧ allocs.layers = true ∧
          ∃ shared vector vector', started globals allocs = (none,shared) ∧ shared.contextHandlesVector = some vector ∧
            registerHandleForObject vector maxNumContexts (some address) allocs.register = some (.ok,vector') ∧
            globals' = {shared with contextHandlesVector := some vector'})) := by
  have counted := started_refCount globals allocs
  generalize start : started globals allocs = outcome at counted ⊢
  obtain ⟨jumps,shared⟩ := outcome
  cases jumps with
  | some stop =>
    rw [createInner_eq,start] at made
    obtain ⟨rfl,rfl,rfl⟩ : stop = state ∧ none = context ∧ shared = globals' := by simpa using made
    exact ⟨counted,fun ok => .inl (by rw [ok])⟩
  | none =>
    rw [createInner_eq,start] at made
    dsimp only at made
    split at made
    · obtain ⟨rfl,rfl,rfl⟩ : XiState.outOfMemory = state ∧ none = context ∧ shared = globals' := by simpa using made
      exact ⟨counted,fun ok => by cases ok⟩
    split at made
    · cases made
    · rename_i memory chain
      obtain ⟨vector,exists_,rest⟩ := Option.bind_eq_some_iff.mp made
      obtain ⟨⟨answer,vector'⟩,registered,same⟩ := Option.map_eq_some_iff.mp rest
      obtain ⟨rfl,rfl,rfl⟩ : answer = state ∧ (if answer = .ok then some address else none) = context ∧
          {shared with contextHandlesVector := some vector'} = globals' := by simpa using same
      refine ⟨counted,fun ok => .inr ⟨if_pos ok,by simp_all,by simp_all,by simpa using chain,shared,vector,vector',rfl,exists_,?_,rfl⟩⟩
      rw [registered,ok]

/-- A creation is only said to be done where nothing lacked, if there was no vector before the first. -/
theorem createContext_done {handle : Int} (clean : globals.counted.globalsRefCount = 1 → globals.contextHandlesVector = none)
    (made : createContext maxNumContexts globals true allocs address = some (.ok handle,globals')) :
    allocs.context = true ∧ allocs.ioTimeouts = true ∧ allocs.layers = true ∧
      ∃ shared vector vector', started globals allocs = (none,shared) ∧ shared.contextHandlesVector = some vector ∧
        registerHandleForObject vector maxNumContexts (some address) allocs.register = some (.ok,vector') ∧
        findHandleForObject vector' (some address) = some (.ok,handle) ∧ globals' = {shared with contextHandlesVector := some vector'} := by
  obtain ⟨⟨state,context,g⟩,inner,outer⟩ := Option.bind_eq_some_iff.mp made
  dsimp only at outer
  split at outer
  · rename_i ok
    obtain ⟨v,there,rest⟩ := Option.bind_eq_some_iff.mp outer
    obtain ⟨⟨answer,handle'⟩,found,same⟩ := Option.map_eq_some_iff.mp rest
    obtain ⟨_,cases⟩ := createInner_cases inner
    rcases cases ok with stopped | ⟨rfl,memory,timeouts,chain,shared,vector,vector',going,exists_,registered,rfl⟩
    · have none_ := started_stopped clean stopped
      simp [none_] at there
    · obtain rfl : vector' = v := by simpa using there
      dsimp only at same
      split at same
      · rename_i ok'
        obtain ⟨rfl,rfl⟩ : handle' = handle ∧ {shared with contextHandlesVector := some vector'} = globals' := by simpa using same
        exact ⟨memory,timeouts,chain,shared,vector,vector',going,exists_,registered,by rw [found,ok'],rfl⟩
      · simp at same
  · simp at outer

theorem createContext_refCount {answer : Except XiState Int}
    (made : createContext maxNumContexts globals true allocs address = some (answer,globals')) :
    globals'.globalsRefCount = globals.globalsRefCount + 1 := by
  obtain ⟨⟨state,context,g⟩,inner,outer⟩ := Option.bind_eq_some_iff.mp made
  obtain ⟨counted,_⟩ := createInner_cases inner
  dsimp only at outer
  split at outer
  · obtain ⟨v,_,rest⟩ := Option.bind_eq_some_iff.mp outer
    obtain ⟨⟨answer',handle⟩,_,same⟩ := Option.map_eq_some_iff.mp rest
    obtain ⟨_,rfl⟩ : _ ∧ g = globals' := by simpa using same
    exact counted
  · obtain ⟨_,rfl⟩ : _ ∧ g = globals' := by simpa using outer
    exact counted

theorem createContext_of_registered {shared : Globals} {vector vector' : XiVector (Option Nat)} {handle : Int}
    (memory : allocs.context = true) (timeouts : allocs.ioTimeouts = true) (chain : allocs.layers = true) (going : started globals allocs = (none,shared))
    (there : shared.contextHandlesVector = some vector)
    (registered : registerHandleForObject vector maxNumContexts (some address) allocs.register = some (.ok,vector'))
    (found : findHandleForObject vector' (some address) = some (.ok,handle)) :
    createContext maxNumContexts globals true allocs address = some (.ok handle,{shared with contextHandlesVector := some vector'}) := by
  rw [createContext,createInner_eq,going]
  simp [memory,timeouts,chain,there,registered,found]

theorem createContext_uninitialized :
    createContext maxNumContexts globals false allocs address = some (.error .notInitialized,globals) := by
  simp [createContext,createContextWithCustomLayersAndEvtd]

end Creation

section Runs

variable {registry : Registry} {maxNumContexts : Int32} {allocs : Allocs} {address : Nat}

/-- The globals while there are contexts. -/
def running (n : Nat) (vector : XiVector (Option Nat)) : Globals where
  globalsRefCount := UInt8.ofNat n
  evtdInstance := true
  backoffLut := true
  decayLut := true
  contextHandlesVector := some vector
  timedTasksContainer := true

/-- Nothing is left, or everything is there and the handles are those of the contexts. -/
inductive Good : Registry → Prop
  | clean : Good {}
  | shared (vector : XiVector (Option Nat)) (live : Live Nat) : Agrees vector live → live ≠ [] →
      Good ⟨running live.length vector,live⟩

theorem Good.counted (good : Good registry) : Counted registry := by
  cases good with
  | clean => exact ⟨rfl,by simp,by simp,by simp,by simp,by simp⟩
  | shared vector live agrees some_ =>
    have positive := List.length_pos_of_ne_nil some_
    have fits := live_le agrees
    have count : (running live.length vector).globalsRefCount.toNat = live.length := by
      rw [running,UInt8.toNat_ofNat']
      omega
    exact ⟨count,iff_of_true rfl positive,iff_of_true rfl positive,iff_of_true rfl positive,iff_of_true rfl positive,iff_of_true rfl positive⟩

theorem Good.clean_start (good : Good registry) :
    registry.globals.counted.globalsRefCount = 1 → registry.globals.contextHandlesVector = none := by
  cases good with
  | clean => exact fun _ => rfl
  | shared vector live agrees some_ =>
    intro first
    have positive := List.length_pos_of_ne_nil some_
    have fits := live_le agrees
    have count : (UInt8.ofNat live.length + 1).toNat = 1 := congrArg UInt8.toNat first
    rw [UInt8.toNat_add,UInt8.toNat_ofNat'] at count
    change (live.length % 2 ^ 8 + 1) % 2 ^ 8 = 1 at count
    omega

theorem started_running {vector : XiVector (Option Nat)} {n : Nat} (positive : 0 < n) (fits : n ≤ 127) :
    started (running n vector) allocs = (none,running (n + 1) vector) := by
  have counted : (running n vector).counted = running (n + 1) vector := by
    simp only [Globals.counted,running,UInt8.ofNat_add]
    rfl
  rw [started,counted,if_neg]
  intro first
  have count : (UInt8.ofNat (n + 1)).toNat = 1 := congrArg UInt8.toNat first
  rw [UInt8.toNat_ofNat'] at count
  omega

theorem created_of_join {alloc allocArray : Bool} {vector : XiVector (Option Nat)}
    (made : (XiVector.create alloc allocArray).join = some vector) : alloc = true ∧ allocArray = true ∧ created Nat = vector := by
  cases alloc <;> cases allocArray <;>
    simp_all [created,XiVector.create,XiVector.realloc,XiVector.defaultCapacity,List.replicate]

theorem create_wanted (good : Good registry) {initialized : Bool}
    (supplied : Supplied maxNumContexts registry (.create initialized allocs address))
    (fresh : address ∉ registry.live.map Prod.fst) :
    ∃ answer, createContext maxNumContexts registry.globals initialized allocs address = some answer ∧
      Good (registry.create address answer) ∧ ∀ state, answer.1 = .error state → answer.2 = registry.globals := by
  cases initialized with
  | false => exact ⟨_,createContext_uninitialized,good,fun _ _ => rfl⟩
  | true =>
    obtain ⟨memory,timeouts,chain,slot⟩ := supplied fresh rfl
    cases good with
    | clean =>
      obtain ⟨evtd,backoff,decay,handles,array,tasks,limit⟩ := slot
      have going : started {} allocs = (none,running 1 (created Nat)) := by
        have made : (XiVector.create true true).join = some (created Nat) := rfl
        simp [started,Globals.counted,createGlobals,evtd,backoff,decay,handles,array,tasks,running,made]
      have first : Slot maxNumContexts (created Nat) allocs.register := .inr ⟨limit,.inl (by decide)⟩
      obtain ⟨vector',handle,registered,found,agrees⟩ := registered_of_slot created_agrees fresh first
      exact ⟨_,createContext_of_registered memory timeouts chain going rfl registered found,
        .shared vector' [(address,handle)] agrees (List.cons_ne_nil _ _),fun _ failed => by cases failed⟩
    | shared vector live agrees some_ =>
      have going : started (running live.length vector) allocs = (none,running (live.length + 1) vector) :=
        started_running (List.length_pos_of_ne_nil some_) (live_le agrees)
      obtain ⟨vector',handle,registered,found,agrees'⟩ := registered_of_slot agrees fresh slot
      exact ⟨_,createContext_of_registered memory timeouts chain going rfl registered found,
        .shared vector' ((address,handle) :: live) agrees' (List.cons_ne_nil _ _),fun _ failed => by cases failed⟩

theorem supplied_of_created (good : Good registry) (fresh : address ∉ registry.live.map Prod.fst)
    {handle : Int} {globals' : Globals} (made : createContext maxNumContexts registry.globals true allocs address = some (.ok handle,globals'))
    (counted : Counted (registry.create address (.ok handle,globals'))) :
    Supplied maxNumContexts registry (.create true allocs address) := by
  intro _ _
  obtain ⟨memory,timeouts,chain,shared,vector,vector',going,there,registered,found,rfl⟩ := createContext_done good.clean_start made
  refine ⟨memory,timeouts,chain,?_⟩
  cases good with
  | clean =>
    obtain ⟨evtd,backoff,decay,rfl⟩ := createGlobals_done going
    obtain ⟨handles,array,rfl⟩ := created_of_join there
    have tasks : allocs.timedTasks = true := counted.timedTasksContainer.mpr (Nat.succ_pos _)
    rcases slot_of_found created_agrees fresh registered found with empty | ⟨limit,_⟩
    · exact absurd empty (by decide)
    · exact ⟨evtd,backoff,decay,handles,array,tasks,limit⟩
  | shared vector₀ live agrees some_ =>
    rw [started_running (List.length_pos_of_ne_nil some_) (live_le agrees)] at going
    obtain rfl : running (live.length + 1) vector₀ = shared := by simpa using going
    obtain rfl : vector₀ = vector := by simpa [running] using there
    exact slot_of_found agrees fresh registered found

theorem without_handle {vector : XiVector (Option Nat)} {live : Live Nat} {handle : Int} (agrees : Agrees vector live)
    (known : (address,handle) ∈ live) : without address live = live.filter fun entry => entry.2 ≠ handle := by
  refine List.filter_congr ?_
  rintro ⟨object,handle'⟩ member
  have same : object = address ↔ handle' = handle := by
    constructor
    · rintro rfl
      exact agrees.functional member known
    · rintro rfl
      exact agrees.injective member known
  simp [same]

theorem delete_wanted (good : Good registry) {contextHandle : Int32} (known : contextHandle.toInt ∈ registry.live.map Prod.snd) :
    ∃ globals, deleteContext registry.globals contextHandle = some (.ok,globals) ∧
      Good ⟨globals,registry.live.filter fun entry => entry.2 ≠ contextHandle.toInt⟩ := by
  cases good with
  | clean => simp at known
  | shared vector live agrees some_ =>
    obtain ⟨⟨address,handle⟩,entry,same⟩ := List.mem_map.mp known
    obtain rfl : handle = contextHandle.toInt := same
    obtain ⟨found,got,belongs⟩ := objectForHandle_live agrees contextHandle
    obtain rfl : found = some address := (belongs address).mpr (by rwa [agrees.byte entry])
    obtain ⟨answer,vector',deleted,ok,agrees'⟩ := delete_done agrees address
    obtain rfl : answer = .ok := ok.mpr (List.mem_map_of_mem entry)
    rw [if_pos rfl,without_handle agrees entry] at agrees'
    have length := without_length agrees.once entry
    rw [without_handle agrees entry] at length
    generalize (live.filter fun entry => entry.2 ≠ contextHandle.toInt) = rest at agrees' length ⊢
    have count : UInt8.ofNat live.length - 1 = UInt8.ofNat rest.length := by
      rw [length,UInt8.ofNat_add]
      exact UInt8.add_sub_cancel _ _
    have result : deleteContext (running live.length vector) contextHandle = some (.ok,
        if UInt8.ofNat rest.length = 0 then {} else running rest.length vector') := by
      simp only [deleteContext,running,Option.bind_some,got,Option.join_some,deleted,Option.map_some,count]
      by_cases last : UInt8.ofNat rest.length = 0
      · simp [last]
      · simp [last]
    cases rest with
    | nil => exact ⟨_,result,.clean⟩
    | cons first others =>
      have fits := live_le agrees'
      refine ⟨_,result,?_⟩
      rw [if_neg]
      · exact .shared vector' (first :: others) agrees' (List.cons_ne_nil _ _)
      · intro none_
        have zero : (UInt8.ofNat (first :: others).length).toNat = 0 := congrArg UInt8.toNat none_
        rw [UInt8.toNat_ofNat',List.length_cons] at zero
        rw [List.length_cons] at fits
        omega

theorem wanted_iff_supplied (good : Good registry) (event : Event) :
    Wanted maxNumContexts registry event ↔ Supplied maxNumContexts registry event := by
  cases event with
  | create initialized allocs address =>
    constructor
    · intro wanted fresh initialized_
      subst initialized_
      obtain ⟨⟨answer,globals'⟩,made,counted,kept⟩ := wanted fresh
      cases answer with
      | error state =>
        have same : globals' = registry.globals := kept state rfl
        have grown := createContext_refCount made
        rw [same] at grown
        simp at grown
      | ok handle => exact supplied_of_created good fresh made counted fresh rfl
    · intro supplied fresh
      obtain ⟨answer,made,good',kept⟩ := create_wanted good supplied fresh
      exact ⟨answer,made,good'.counted,kept⟩
  | delete contextHandle =>
    refine iff_of_true (fun known => ?_) trivial
    obtain ⟨globals,deleted,good'⟩ := delete_wanted good known
    exact ⟨globals,deleted,good'.counted⟩

theorem next_good (good : Good registry) {event : Event} (supplied : Supplied maxNumContexts registry event) {registry' : Registry}
    (stepped : next maxNumContexts registry event = some registry') : Good registry' := by
  cases event with
  | create initialized allocs address =>
    rw [next] at stepped
    split at stepped
    · cases stepped
    · rename_i fresh
      obtain ⟨answer,made,good',_⟩ := create_wanted good supplied fresh
      obtain rfl : registry.create address answer = registry' := by simpa [made] using stepped
      exact good'
  | delete contextHandle =>
    rw [next] at stepped
    split at stepped
    · rename_i known
      obtain ⟨globals,deleted,good'⟩ := delete_wanted good known
      obtain rfl : (⟨globals,registry.live.filter fun entry => entry.2 ≠ contextHandle.toInt⟩ : Registry) = registry' := by
        simpa [deleted] using stepped
      exact good'
    · cases stepped

/-- In a run of creations and deletions the count is always right, and every failed creation leaves things as they were, exactly if every
creation has what it needs. -/
theorem each_counted_iff (maxNumContexts : Int32) (events : List Event) :
    Runs.Each (next maxNumContexts) (Wanted maxNumContexts) {} events ↔ Runs.Each (next maxNumContexts) (Supplied maxNumContexts) {} events := by
  refine Runs.each_iff (I := Good) (fun registry event good => wanted_iff_supplied good event) ?_ .clean
  intro registry event registry' good wanted stepped
  exact next_good good ((wanted_iff_supplied good event).mp wanted) stepped

/-- A context for which memory lacks is counted all the same. -/
theorem failed_creation_counted :
    ¬ ∀ (maxNumContexts : Int32) (events : List Event), Runs.Each (next maxNumContexts) (Wanted maxNumContexts) {} events := by
  intro claim
  obtain ⟨first,_⟩ := claim 1 [.create true {context := false} 7]
  obtain ⟨⟨answer,globals⟩,made,_,kept⟩ := first (by simp)
  have fails : (createContext 1 {} true {context := false} 7).map Prod.fst = some (.error .outOfMemory) := rfl
  rw [made] at fails
  have same : globals = {} := kept .outOfMemory (by simpa using fails)
  have counted := createContext_refCount made
  rw [same] at counted
  exact absurd counted (by decide)

end Runs

end XivelyClient.Contexts
