import XivelyClient.ConnectionData
import XivelyClient.Lib.Runs

/-! One context and the calls that start and cancel a connection on it. The layers below the logic layer
are the environment: the events that change the connection state may come at any time. -/
namespace XivelyClient

inductive ShutdownState
  | uninitialised | started
  deriving DecidableEq, Repr

/-- The calls on the upper layers that wait in the dispatcher's queue. -/
inductive LayerCall
  | logicInit | pushShutdown
  deriving DecidableEq, Repr

/-- What has happened to the attempts to connect. -/
inductive Milestone
  | accepted | cancelled | closed | openFailed
  deriving DecidableEq, Repr

/-- `connectHandler` tells that the delayed start is scheduled; `crashed` that a NULL string was read; `initFailed` that an init
of the last attempt had no memory, of which nobody is told. -/
structure Context where
  connectionData : Option ConnectionData := none
  connectHandler : Bool := false
  shutdownState : ShutdownState := .uninitialised
  callQueue : List LayerCall := []
  crashed : Bool := false
  initFailed : Bool := false
  log : List Milestone := []
  deriving DecidableEq, Repr

namespace Context

def connectionState (context : Context) : Option ConnectionState :=
  context.connectionData.map ConnectionData.connectionState

def setConnectionState (context : Context) (state : ConnectionState) : Context :=
  {context with connectionData := context.connectionData.map ({· with connectionState := state})}

/-- The states from which a connect may start. -/
def mayStart : ConnectionState → Bool
  | .closed | .openFailed | .uninitialized => true
  | .opening | .opened | .closing => false

/-- The accepted end of `xi_connect_with_lastwill_to_impl`: the init of the top layer is scheduled. -/
def acceptConnect (context : Context) (data : ConnectionData) : Context :=
  {context with
    connectionData := some {data with connectionState := .uninitialized}
    shutdownState := .uninitialised
    connectHandler := true
    initFailed := false
    log := context.log ++ [.accepted]}

def connectWithLastwillToImpl (context : Context) (request : ConnectionRequest) : Context × XiState :=
  if request.host = none then (context,.nullHost)
  else if context.connectHandler then (context,.alreadyInitialized)
  else
    match context.connectionData with
    | some data =>
      if mayStart data.connectionState then
        match data.updateLastwill request with
        | some data => (context.acceptConnect data,.ok)
        | none => ({context with crashed := true},.internalError)
      else (context,.alreadyInitialized)
    | none => (context.acceptConnect (.allocLastwill request),.ok)

def shutdownConnection (context : Context) : Context × XiState :=
  if context.connectHandler then
    ({context with connectHandler := false,log := context.log ++ [.cancelled]},.ok)
  else if context.connectionState ≠ some .opened then (context,.socketNoActiveConnectionError)
  else
    match context.shutdownState with
    | .uninitialised =>
      ({context with shutdownState := .started,callQueue := context.callQueue ++ [.pushShutdown]},.ok)
    | .started => (context,.alreadyInitialized)

/-- The scheduled start: the dispatcher takes the event out and runs the init of the control topic layer, which leaves that of the
logic layer in the queue. Without memory for its data or for that call it ends there. -/
def controlTopicLayerInit (context : Context) (granted : Bool) : Context :=
  if granted then {context with connectHandler := false,callQueue := context.callQueue ++ [.logicInit]}
  else {context with connectHandler := false,initFailed := true}

/-- Without memory for the data of the layer or for its handlers the connection state stays. -/
def logicLayerInit (context : Context) (granted : Bool) : Context :=
  if granted then context.setConnectionState .opening else {context with initFailed := true}

/-- The front of the dispatcher's queue. -/
def dispatch (context : Context) (granted : Bool) : Context :=
  match context.callQueue with
  | [] => context
  | .logicInit :: queue => {context with callQueue := queue}.logicLayerInit granted
  | .pushShutdown :: queue => {context with callQueue := queue}

/-- The logic layer has got an accepting CONNACK. -/
def connected (context : Context) : Context := context.setConnectionState .opened

def controlTopicLayerClose (context : Context) : Context := context.setConnectionState .closing

def controlTopicLayerCloseExternally (context : Context) : Context :=
  if context.connectionState = some .opening then
    {context.setConnectionState .openFailed with initFailed := false,log := context.log ++ [.openFailed]}
  else {context.setConnectionState .closed with initFailed := false,log := context.log ++ [.closed]}

inductive Event
  | connect (request : ConnectionRequest)
  | shutdown
  | start (granted : Bool)
  | dispatch (granted : Bool)
  | connected
  | close
  | closeExternally
  deriving DecidableEq, Repr

def step (context : Context) (event : Event) : Context :=
  if context.crashed then context
  else
    match event with
    | .connect request => (context.connectWithLastwillToImpl request).1
    | .shutdown => context.shutdownConnection.1
    | .start granted => if context.connectHandler then context.controlTopicLayerInit granted else context
    | .dispatch granted => context.dispatch granted
    | .connected => context.connected
    | .close => context.controlTopicLayerClose
    | .closeExternally => context.controlTopicLayerCloseExternally

/-- The attempts whose inits have not come through the layers: scheduled, between the layers, or opening. -/
def initsInProgress (context : Context) : Nat :=
  context.connectHandler.toNat + context.callQueue.count .logicInit +
    (decide (context.connectionState = some .opening)).toNat

/-- The attempt that was accepted last is neither cancelled nor over. -/
def live (log : List Milestone) : Prop := log.getLast? = some .accepted

/-- No connect was accepted while an attempt was live. -/
def Exclusive (log : List Milestone) : Prop :=
  ∀ before after, log = before ++ .accepted :: after → ¬ live before

/-- No connect to a host comes while the init of the logic layer is on its way, or after an init that had no memory. -/
def outsideWindow (context : Context) : Event → Prop
  | .connect request => request.host ≠ none → .logicInit ∉ context.callQueue ∧ context.initFailed = false
  | _ => True

theorem exclusive_append {log : List Milestone} {milestone : Milestone} (exclusive : Exclusive log)
    (fresh : milestone = .accepted → ¬ live log) : Exclusive (log ++ [milestone]) := by
  intro before after split
  rcases List.eq_nil_or_concat after with rfl | ⟨rest,last,rfl⟩
  · obtain ⟨same,accepted⟩ := List.append_inj' split rfl
    rw [← same]
    exact fresh (List.cons.inj accepted).1
  · rw [List.concat_eq_append,← List.cons_append,← List.append_assoc] at split
    exact exclusive before rest (List.append_inj' split rfl).1

theorem not_live_append {log : List Milestone} {milestone : Milestone} (other : milestone ≠ .accepted) :
    ¬ live (log ++ [milestone]) := by
  rw [live,List.getLast?_concat]
  intro same
  exact other (Option.some.inj same)

/-- A live attempt is seen by one of the checks, or its init is on the way to the logic layer or has failed. -/
structure Tidy (context : Context) : Prop where
  stored : live context.log → ∃ state, context.connectionState = some state
  exclusive : Exclusive context.log
  single : context.initsInProgress ≤ 1
  seen : live context.log → context.connectHandler = true ∨ .logicInit ∈ context.callQueue ∨ context.initFailed = true ∨
    ∃ state, context.connectionState = some state ∧ mayStart state = false

theorem tidy_start : Tidy {} where
  stored := by
    intro isLive
    exact absurd isLive (Option.some_ne_none _).symm
  exclusive := by
    intro before after split
    exact absurd split.symm (List.append_ne_nil_of_right_ne_nil before (List.cons_ne_nil _ _))
  single := Nat.zero_le 1
  seen := by
    intro isLive
    exact absurd isLive (Option.some_ne_none _).symm

@[simp] theorem connectionState_set (context : Context) (state : ConnectionState) :
    (context.setConnectionState state).connectionState = context.connectionState.map (fun _ => state) := by
  rw [connectionState,connectionState,setConnectionState,Option.map_map,Option.map_map]
  rfl

theorem tidy_acceptConnect {context : Context} (tidy : Tidy context) (data : ConnectionData)
    (idle : context.connectHandler = false) (outside : .logicInit ∉ context.callQueue) (alive : context.initFailed = false)
    (start : ∀ state, context.connectionState = some state → mayStart state = true) :
    Tidy (context.acceptConnect data) where
  stored := fun _ => ⟨.uninitialized,rfl⟩
  exclusive := by
    apply exclusive_append tidy.exclusive
    intro _ isLive
    rcases tidy.seen isLive with scheduled | pending | failed | ⟨state,same,final⟩
    · exact absurd scheduled (by rw [idle]; exact Bool.false_ne_true)
    · exact outside pending
    · exact absurd failed (by rw [alive]; exact Bool.false_ne_true)
    · exact absurd (start state same) (by rw [final]; exact Bool.false_ne_true)
  single := by
    have none : context.callQueue.count .logicInit = 0 := List.count_eq_zero.mpr outside
    simp [initsInProgress,acceptConnect,connectionState,none]
  seen := fun _ => .inl rfl

theorem tidy_connect {context : Context} (tidy : Tidy context) {request : ConnectionRequest}
    (outside : outsideWindow context (.connect request)) : Tidy (context.connectWithLastwillToImpl request).1 := by
  unfold connectWithLastwillToImpl
  split
  · exact tidy
  rename_i host
  split
  · exact tidy
  rename_i handler
  have idle : context.connectHandler = false := eq_false_of_ne_true handler
  obtain ⟨clear,alive⟩ := outside host
  split
  · rename_i data stored
    split
    · rename_i may
      have start : ∀ state, context.connectionState = some state → mayStart state = true := by
        intro state same
        rw [connectionState,stored] at same
        rw [← Option.some.inj same]
        exact may
      split
      · exact tidy_acceptConnect tidy _ idle clear alive start
      · exact ⟨tidy.stored,tidy.exclusive,tidy.single,tidy.seen⟩
    · exact tidy
  · rename_i stored
    have start : ∀ state, context.connectionState = some state → mayStart state = true := by
      intro state same
      rw [connectionState,stored] at same
      exact absurd same.symm (Option.some_ne_none state)
    exact tidy_acceptConnect tidy _ idle clear alive start

theorem tidy_shutdown {context : Context} (tidy : Tidy context) : Tidy context.shutdownConnection.1 := by
  unfold shutdownConnection
  split
  · rename_i scheduled
    have dead : ¬ live (context.log ++ [.cancelled]) := not_live_append (by decide)
    refine ⟨fun isLive => absurd isLive dead,exclusive_append tidy.exclusive ?_,?_,fun isLive => absurd isLive dead⟩
    · intro same
      cases same
    · have single := tidy.single
      unfold initsInProgress at single
      rw [scheduled] at single
      change false.toNat + context.callQueue.count .logicInit + (decide (context.connectionState = some .opening)).toNat ≤ 1
      simp only [Bool.toNat_false,Bool.toNat_true] at *
      omega
  split
  · exact tidy
  split
  · refine ⟨tidy.stored,tidy.exclusive,?_,?_⟩
    · have single := tidy.single
      simpa [initsInProgress,connectionState] using single
    · intro isLive
      exact (tidy.seen isLive).imp_right (Or.imp_left (List.mem_append_left _))
  · exact tidy

/-- An init that had no memory leaves the attempt as it is, but for the event that is gone. -/
theorem tidy_initFailed {context : Context} (tidy : Tidy context) {handler : Bool} {queue : List LayerCall}
    (fewer : handler.toNat + queue.count .logicInit ≤ context.connectHandler.toNat + context.callQueue.count .logicInit) :
    Tidy {context with connectHandler := handler,callQueue := queue,initFailed := true} where
  stored := tidy.stored
  exclusive := tidy.exclusive
  single := (Nat.add_le_add_right fewer _).trans tidy.single
  seen := fun _ => .inr (.inr (.inl rfl))

theorem tidy_controlTopicLayerInit {context : Context} (tidy : Tidy context) (scheduled : context.connectHandler = true)
    (granted : Bool) : Tidy (context.controlTopicLayerInit granted) := by
  cases granted with
  | false => exact tidy_initFailed tidy (Nat.add_le_add_right (Nat.zero_le _) _)
  | true =>
    refine ⟨tidy.stored,tidy.exclusive,?_,fun _ => .inr (.inl (List.mem_append_right _ (List.mem_singleton_self _)))⟩
    have single := tidy.single
    unfold initsInProgress at single
    rw [scheduled] at single
    change false.toNat + (context.callQueue ++ [LayerCall.logicInit]).count LayerCall.logicInit +
      (decide (context.connectionState = some .opening)).toNat ≤ 1
    rw [List.count_append,List.count_singleton_self]
    simp only [Bool.toNat_false,Bool.toNat_true] at *
    omega

/-- The events that only move the connection state. -/
theorem tidy_setConnectionState {context : Context} (tidy : Tidy context) {state : ConnectionState}
    (running : mayStart state = false) (through : state ≠ .opening) : Tidy (context.setConnectionState state) where
  stored := by
    intro isLive
    obtain ⟨old,same⟩ := tidy.stored isLive
    exact ⟨state,by rw [connectionState_set,same]; rfl⟩
  exclusive := tidy.exclusive
  single := by
    have single := tidy.single
    unfold initsInProgress at *
    rw [connectionState_set]
    have : context.connectionState.map (fun _ => state) ≠ some .opening := by
      intro same
      obtain ⟨_,_,same⟩ := Option.map_eq_some_iff.mp same
      exact through same
    simp only [this,decide_false,Bool.toNat_false]
    simp only [setConnectionState]
    omega
  seen := by
    intro isLive
    refine (tidy.seen isLive).imp_right (Or.imp_right (Or.imp_right ?_))
    rintro ⟨old,same,_⟩
    exact ⟨state,by rw [connectionState_set,same]; rfl,running⟩

theorem tidy_logicLayerInit {context : Context} (tidy : Tidy context) {queue : List LayerCall}
    (waiting : context.callQueue = .logicInit :: queue) (granted : Bool) :
    Tidy ({context with callQueue := queue}.logicLayerInit granted) := by
  cases granted with
  | false =>
    have fewer : context.connectHandler.toNat + queue.count .logicInit ≤
        context.connectHandler.toNat + context.callQueue.count .logicInit := by
      rw [waiting,List.count_cons_self]
      omega
    exact tidy_initFailed tidy fewer
  | true =>
    have single := tidy.single
    unfold initsInProgress at single
    rw [waiting,List.count_cons_self] at single
    have opened : live context.log →
        ({context with callQueue := queue}.logicLayerInit true).connectionState = some .opening := by
      intro isLive
      obtain ⟨old,same⟩ := tidy.stored isLive
      rw [logicLayerInit,if_pos rfl,connectionState_set]
      change context.connectionState.map _ = _
      rw [same]
      rfl
    refine ⟨fun isLive => ⟨.opening,opened isLive⟩,tidy.exclusive,?_,
      fun isLive => .inr (.inr (.inr ⟨.opening,opened isLive,rfl⟩))⟩
    have bound := Bool.toNat_le (decide (({context with callQueue := queue}.logicLayerInit true).connectionState = some .opening))
    unfold initsInProgress
    change context.connectHandler.toNat + queue.count .logicInit + _ ≤ 1
    omega

theorem tidy_dispatch {context : Context} (tidy : Tidy context) (granted : Bool) : Tidy (context.dispatch granted) := by
  unfold dispatch
  split
  · exact tidy
  · rename_i queue waiting
    exact tidy_logicLayerInit tidy waiting granted
  · rename_i queue waiting
    refine ⟨tidy.stored,tidy.exclusive,?_,?_⟩
    · have single := tidy.single
      unfold initsInProgress at *
      rw [waiting,List.count_cons_of_ne (by decide)] at single
      exact single
    · intro isLive
      refine (tidy.seen isLive).imp_right (Or.imp_left ?_)
      intro pending
      rw [waiting] at pending
      exact (List.mem_cons.mp pending).resolve_left (by decide)

/-- The end of the connection. -/
theorem tidy_end {context : Context} (tidy : Tidy context) {state : ConnectionState} {milestone : Milestone}
    (dead : milestone ≠ .accepted) (through : state ≠ .opening) :
    Tidy {context.setConnectionState state with initFailed := false,log := context.log ++ [milestone]} where
  stored := fun isLive => absurd isLive (not_live_append dead)
  exclusive := exclusive_append tidy.exclusive fun same => absurd same dead
  single := by
    have single := tidy.single
    unfold initsInProgress at *
    change _ + _ + (decide ((context.setConnectionState state).connectionState = some .opening)).toNat ≤ 1
    rw [connectionState_set]
    have : context.connectionState.map (fun _ => state) ≠ some .opening := by
      intro same
      obtain ⟨_,_,same⟩ := Option.map_eq_some_iff.mp same
      exact through same
    simp only [this,decide_false,Bool.toNat_false]
    simp only [setConnectionState]
    omega
  seen := fun isLive => absurd isLive (not_live_append dead)

theorem tidy_step {context : Context} (tidy : Tidy context) {event : Event}
    (outside : outsideWindow context event) : Tidy (step context event) := by
  unfold step
  split
  · exact tidy
  cases event with
  | connect request => exact tidy_connect tidy outside
  | shutdown => exact tidy_shutdown tidy
  | start granted =>
    simp only
    split
    · rename_i scheduled
      exact tidy_controlTopicLayerInit tidy scheduled granted
    · exact tidy
  | dispatch granted => exact tidy_dispatch tidy granted
  | connected => exact tidy_setConnectionState tidy rfl (by decide)
  | close => exact tidy_setConnectionState tidy rfl (by decide)
  | closeExternally =>
    simp only [controlTopicLayerCloseExternally]
    split
    · exact tidy_end tidy (by decide) (by decide)
    · exact tidy_end tidy (by decide) (by decide)

/-- A context whose connects all come outside the window has one live attempt and one init under way at most. -/
theorem attempts_exclusive (events : List Event) (outside : Runs.Admissible step outsideWindow {} events) :
    Runs.Always step (fun context => Exclusive context.log ∧ context.initsInProgress ≤ 1) {} events := by
  have always : Runs.Always step Tidy {} events :=
    Runs.always_of_step (fun context event tidy outside => tidy_step tidy outside) tidy_start outside
  exact always.mono fun context tidy => ⟨tidy.exclusive,tidy.single⟩

instance (context : Context) (event : Event) : Decidable (outsideWindow context event) :=
  match event with
  | .connect request =>
    inferInstanceAs (Decidable (request.host ≠ none → .logicInit ∉ context.callQueue ∧ context.initFailed = false))
  | .shutdown | .start _ | .dispatch _ | .connected | .close | .closeExternally => isTrue trivial

/-- A cancelled attempt, one that is opening when another connect comes, and one behind its end. -/
def restarted : List Event := [.connect {host := some []},.shutdown,.connect {host := some []},.start true,.dispatch true,
  .connect {host := some []},.closeExternally,.connect {host := some []}]

theorem attempts_exclusive_restarted :
    Runs.Always step (fun context => Exclusive context.log ∧ context.initsInProgress ≤ 1) {} restarted :=
  attempts_exclusive _ (by decide)

/-- A second connect between the start event and the init of the logic layer. -/
theorem connect_in_window :
    ¬ ∀ events : List Event,
      Runs.Always step (fun context => Exclusive context.log ∧ context.initsInProgress ≤ 1) {} events := by
  intro always
  have broken := (always [.connect {host := some []},.start true,.connect {host := some []}]).last.2
  exact absurd broken (by decide)

end Context

end XivelyClient
