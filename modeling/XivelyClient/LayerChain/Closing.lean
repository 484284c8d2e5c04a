import XivelyClient.LayerChain.Chain
import XivelyClient.Lib.Runs

/-! What is told to the user when the layers close. -/
namespace XivelyClient.LayerChain

def Outcome.isFailed : Outcome → Bool
  | .failed _ _ => true
  | _ => false

namespace Chain

/-- The task that is stopped begins to close. -/
def stopBegins (chain : Chain) : Stop → Bool
  | .nothing => false
  | .connect => chain.connecting && chain.operational .mqttLogic
  | .keepalive | .shutdown => true

/-- The call begins a close of its own. -/
def deferredBegins (chain : Chain) (answers : Answers) : Deferred → Bool
  | .layer .init .io _ => !chain.hasData .io && (!answers.layerAlloc || answers.outcome.isFailed)
  | .layer .init .tls _ => if chain.hasData .tls || answers.layerAlloc then answers.outcome.isFailed else true
  | .layer .connect .io state => state == .ok && (!chain.hasData .io || answers.outcome.isFailed)
  | .layer .connect .tls state => state == .ok && (chain.operational .tls && answers.outcome.isFailed)
  | .layer .connect .controlTopic state => state == .ok && (answers.outcome.isFailed || !answers.subscribes)
  | .layer .pull .tls _ => if chain.operational .tls then answers.outcome.isFailed else true
  | .layer .closeExternally .mqttLogic state =>
    !(state != .ok && chain.layerState .mqttLogic == .connecting) && chain.hasData .mqttLogic && chain.stopBegins answers.stop
  | _ => false

/-- The step begins a close, beside those that are under way. -/
def begins (chain : Chain) (answers : Answers) : Input → Bool
  | .run => match chain.queue with
    | [] => false
    | deferred :: _ => chain.deferredBegins answers deferred
  | .socketReady => chain.socketWaits && (!chain.hasData .io || answers.outcome.isFailed)
  | .receives | .resourceClosed _ => false
  | .ioFails _ => chain.operational .io
  | .codecFails _ => chain.operational .mqttCodec
  | .terminal => chain.operational .mqttLogic
  | .reconnect | .shutdown => chain.hasData .mqttLogic
  | .connectEnds state => state != .ok && (chain.connecting && chain.operational .mqttLogic)
  | .connectTimeout => chain.connecting

end Chain

def ended : ConnectionState → Bool
  | .closed | .openFailed => true
  | _ => false

/-- The user is yet to be told of an open connection. -/
def Deferred.opens : Deferred → Bool
  | .connectionCallback _ => true
  | .layer .connect .controlTopic state => state == .ok
  | _ => false

/-- A call by which the connection goes on opening. -/
def Deferred.opening : Deferred → Bool
  | .layer .init .controlTopic _ | .layer .init .mqttLogic _ | .layer .init .mqttCodec _ | .layer .init .tls _ => true
  | .layer .connect .mqttCodec state | .layer .connect .mqttLogic state => state == .ok
  | _ => false

/-- A call that says nothing when its layer has no memory. -/
def Deferred.silent : Deferred → Bool
  | .layer .init .controlTopic _ | .layer .init .mqttLogic _ => true
  | .layer .connect .mqttLogic state => state == .ok
  | _ => false

def Deferred.isCallback : Deferred → Bool
  | .connectionCallback _ => true
  | _ => false

/-- Calls that no layer makes once the connection is opening. The last layer is never asked to close. -/
def Deferred.early : Deferred → Bool
  | .layer .init .controlTopic _ | .layer .init .mqttLogic _ | .layer .close .controlTopic _ => true
  | _ => false

namespace Chain

section Goes

/-- A call that a layer may leave behind. -/
structure Leaves (before after : Chain) (calls : Bool) (deferred : Deferred) : Prop where
  late : deferred.early = false
  callback : deferred.isCallback = true → calls = true
  torn : ∀ state, deferred = .layer .closeExternally .controlTopic state → after.hasData .mqttLogic = false
  opened : deferred = .layer .connect .controlTopic .ok → before.hasData .mqttLogic = true

/-- What a call leaves behind, with the number of the closes among it. -/
structure Goes (before after : Chain) (closes : Nat) (calls : Bool) : Prop where
  posted : ∃ posted, after.queue = before.queue ++ posted ∧ (∀ deferred ∈ posted, Leaves before after calls deferred) ∧
    posted.countP Deferred.closing + after.resourceWaits = before.resourceWaits + closes
  told : after.told = before.told
  data : after.hasData .mqttLogic = true → before.hasData .mqttLogic = true
  state : after.connectionState = before.connectionState ∨
    ended after.connectionState = false ∧ before.hasData .mqttLogic = true

variable {before between after : Chain} {answers : Answers} {state : XiState} {closes : Nat} {calls : Bool} {func : LayerFunc}
  {source target : Layer}

theorem Goes.refl (chain : Chain) : Goes chain chain 0 false :=
  ⟨⟨[],(List.append_nil _).symm,fun _ member => (List.not_mem_nil member).elim,Nat.zero_add _⟩,rfl,id,.inl rfl⟩

/-- The call that is left behind last. -/
theorem Goes.continueWith (goes : Goes before between closes calls)
    (late : (Deferred.layer func target state).early = false)
    (torn : Deferred.layer func target state = .layer .closeExternally .controlTopic state → between.hasData .mqttLogic = false)
    (opened : Deferred.layer func target state = .layer .connect .controlTopic .ok → before.hasData .mqttLogic = true) :
    Goes before (between.continueWith state func source (some target) true)
      (closes + (Deferred.layer func target state).closing.toNat) calls := by
  obtain ⟨posted,queue,leaves,count⟩ := goes.posted
  refine ⟨⟨posted ++ [.layer func target state],?_,fun deferred member => ?_,?_⟩,goes.told,goes.data,goes.state⟩
  · change between.queue ++ _ = _
    rw [queue,List.append_assoc]
  · rcases List.mem_append.mp member with old | new
    · exact ⟨(leaves deferred old).late,(leaves deferred old).callback,(leaves deferred old).torn,(leaves deferred old).opened⟩
    · cases List.mem_singleton.mp new
      refine ⟨late,fun callback => Bool.noConfusion callback,fun state' same => ?_,opened⟩
      cases same
      exact torn rfl
  · change _ + between.resourceWaits = _
    rw [List.countP_append,List.countP_singleton]
    cases (Deferred.layer func target state).closing
    · simp only [Bool.false_eq_true,if_false,Bool.toNat_false]
      omega
    · simp only [if_true,Bool.toNat_true]
      omega

theorem Goes.quiet (queue : after.queue = before.queue) (waits : after.resourceWaits = before.resourceWaits)
    (told : after.told = before.told) (data : after.hasData .mqttLogic = true → before.hasData .mqttLogic = true)
    (state : after.connectionState = before.connectionState ∨
      ended after.connectionState = false ∧ before.hasData .mqttLogic = true) : Goes before after 0 calls :=
  ⟨⟨[],queue.trans (List.append_nil _).symm,fun _ member => (List.not_mem_nil member).elim,(Nat.zero_add _).trans waits⟩,told,data,state⟩

theorem Goes.retouch (goes : Goes before between closes calls) (queue : after.queue = between.queue)
    (waits : after.resourceWaits = between.resourceWaits) (told : after.told = between.told)
    (data : after.hasData .mqttLogic = between.hasData .mqttLogic) (state : after.connectionState = between.connectionState) :
    Goes before after closes calls := by
  obtain ⟨⟨posted,queue',leaves,count⟩,told',data',state'⟩ := goes
  refine ⟨⟨posted,queue.trans queue',fun deferred member => ?_,waits ▸ count⟩,told.trans told',data ▸ data',state ▸ state'⟩
  exact ⟨(leaves deferred member).late,(leaves deferred member).callback,data ▸ (leaves deferred member).torn,
    (leaves deferred member).opened⟩

theorem Goes.cast {closes' : Nat} (goes : Goes before after closes calls) (same : closes = closes') : Goes before after closes' calls :=
  same ▸ goes

/-- A call that nothing but its guard keeps from a close. -/
theorem Goes.guarded {guard : Bool} (goes : Goes before after 1 calls) :
    Goes before (if guard then after else before) guard.toNat calls := by
  cases guard with
  | true => exact goes
  | false => exact .quiet rfl rfl rfl id (.inl rfl)

variable (memory : answers.alloc = true)
include memory

theorem Goes.onThis (goes : Goes before between closes calls) (late : (Deferred.layer func source state).early = false)
    (torn : Deferred.layer func source state = .layer .closeExternally .controlTopic state → between.hasData .mqttLogic = false)
    (opened : Deferred.layer func source state = .layer .connect .controlTopic .ok → before.hasData .mqttLogic = true) :
    Goes before (between.onThis answers state func source) (closes + (Deferred.layer func source state).closing.toNat) calls := by
  unfold Chain.onThis
  rw [memory]
  exact goes.continueWith late torn opened

theorem Goes.onNext (goes : Goes before between closes calls) (next : source.next = some target)
    (late : (Deferred.layer func target state).early = false)
    (torn : Deferred.layer func target state = .layer .closeExternally .controlTopic state → between.hasData .mqttLogic = false)
    (opened : Deferred.layer func target state = .layer .connect .controlTopic .ok → before.hasData .mqttLogic = true) :
    Goes before (between.onNext answers state func source) (closes + (Deferred.layer func target state).closing.toNat) calls := by
  unfold Chain.onNext
  rw [memory,next]
  exact goes.continueWith late torn opened

theorem Goes.onPrev (goes : Goes before between closes calls) (prev : source.prev = some target)
    (late : (Deferred.layer func target state).early = false)
    (torn : Deferred.layer func target state = .layer .closeExternally .controlTopic state → between.hasData .mqttLogic = false)
    (opened : Deferred.layer func target state = .layer .connect .controlTopic .ok → before.hasData .mqttLogic = true) :
    Goes before (between.onPrev answers state func source) (closes + (Deferred.layer func target state).closing.toNat) calls := by
  unfold Chain.onPrev
  rw [memory,prev]
  exact goes.continueWith late torn opened

end Goes

section Io

variable {chain : Chain} {answers : Answers} (memory : answers.alloc = true)
include memory

theorem ioNetLayerInit_goes (state : XiState) :
    Goes chain (chain.ioNetLayerInit answers) (chain.deferredBegins answers (.layer .init .io state)).toNat false := by
  have failed (state : XiState) : Goes chain (chain.onThis answers state .connect .io) (0 + (state != .ok).toNat) false :=
    (Goes.refl chain).onThis memory rfl nofun nofun
  have quiet : Goes chain (chain.setData .io true) 0 false := .quiet rfl rfl rfl id (.inl rfl)
  have made : Goes chain ((chain.setData .io true).onThis answers .ok .connect .io) (0 + 0) false :=
    quiet.onThis memory rfl nofun nofun
  unfold ioNetLayerInit deferredBegins
  cases chain.hasData .io <;> cases answers.layerAlloc <;> cases answers.outcome <;>
    simp only [Bool.false_eq_true,if_false,if_true,Bool.not_true,Bool.not_false,Bool.true_and,Bool.false_and,Bool.true_or,
      Bool.false_or,Outcome.isFailed,Bool.toNat_true,Bool.toNat_false]
  · exact failed .outOfMemory
  · exact failed .outOfMemory
  · exact failed .outOfMemory
  · exact made
  · exact made
  · rename_i state bad
    exact (failed state).cast (by rw [bne_iff_ne.mpr bad]; rfl)
  all_goals exact Goes.refl chain

theorem ioNetLayerConnect_goes (state : XiState) :
    Goes chain (chain.ioNetLayerConnect answers state) (state != .ok || (!chain.hasData .io || answers.outcome.isFailed)).toNat false := by
  have told (state : XiState) : Goes chain (chain.onNext answers state .connect .io) (0 + (state != .ok).toNat) false :=
    (Goes.refl chain).onNext memory rfl rfl nofun nofun
  have quiet (waits : Bool) : Goes chain {chain with socketWaits := waits} 0 false := .quiet rfl rfl rfl id (.inl rfl)
  have ends (state : XiState) :
      Goes chain ({chain with socketWaits := false}.onNext answers state .connect .io) (0 + (state != .ok).toNat) false :=
    (quiet false).onNext memory rfl rfl nofun nofun
  unfold ioNetLayerConnect
  split
  · rename_i failed
    refine (told state).cast ?_
    rw [bne_iff_ne.mpr failed]
    rfl
  · rename_i fine
    have fine : state = .ok := Decidable.not_not.mp fine
    subst fine
    split
    · rename_i data
      rw [data]
      cases answers.outcome with
      | again => exact quiet true
      | done => exact ends .ok
      | failed state bad => exact (ends state).cast (by rw [bne_iff_ne.mpr bad]; rfl)
    · rename_i absent
      rw [Bool.not_eq_true _ |>.mp absent]
      exact told .internalError

theorem ioNetLayerClose_goes (state : XiState) : Goes chain (chain.ioNetLayerClose answers state) 1 false :=
  (Goes.refl chain).onThis memory rfl nofun nofun

theorem ioNetLayerCloseExternally_goes (state : XiState) : Goes chain (chain.ioNetLayerCloseExternally answers state) 1 false := by
  have quiet : Goes chain {chain.setData .io false with socketWaits := false} 0 false := .quiet rfl rfl rfl id (.inl rfl)
  unfold ioNetLayerCloseExternally
  split
  · exact quiet.onNext memory rfl rfl nofun nofun
  · exact (Goes.refl chain).onNext memory rfl rfl nofun nofun

theorem ioNetLayerFails_goes (state : XiState) :
    Goes chain (chain.ioNetLayerFails answers state) (chain.operational .io).toNat false := by
  have closes : Goes chain (chain.onThis answers state .closeExternally .io) 1 false := (Goes.refl chain).onThis memory rfl nofun nofun
  exact closes.guarded

theorem ioNetLayerReceives_goes : Goes chain (chain.ioNetLayerReceives answers) 0 false := by
  unfold ioNetLayerReceives
  split
  · exact (Goes.refl chain).onNext memory rfl rfl nofun nofun
  · exact Goes.refl chain

end Io

section Tls

variable {chain : Chain} {answers : Answers} (memory : answers.alloc = true)
include memory

theorem tlsLayerInit_goes (state : XiState) :
    Goes chain (chain.tlsLayerInit answers state) (chain.deferredBegins answers (.layer .init .tls state)).toNat false := by
  have quiet (opened handshaking : Bool) : Goes chain {chain.setData .tls true with resourceOpen := opened,handshaking := handshaking} 0
      false := .quiet rfl rfl rfl id (.inl rfl)
  unfold tlsLayerInit deferredBegins
  dsimp only
  split
  · cases answers.outcome with
    | again =>
      refine ⟨⟨[.layer .init .tls state],rfl,fun deferred member => ?_,Nat.zero_add _⟩,rfl,id,.inl rfl⟩
      cases List.mem_singleton.mp member
      exact ⟨rfl,nofun,nofun,nofun⟩
    | done => exact (quiet false true).onPrev memory rfl rfl nofun nofun
    | failed state bad =>
      have goes : Goes chain ((chain.setData .tls true).onThis answers state .connect .tls) (0 + (state != .ok).toNat) false :=
        (quiet chain.resourceOpen chain.handshaking).onThis memory rfl nofun nofun
      exact goes.cast (by rw [bne_iff_ne.mpr bad]; rfl)
  · exact (Goes.refl chain).onThis memory rfl nofun nofun

theorem connectHandler_goes :
    Goes chain (chain.connectHandler answers) (chain.operational .tls && answers.outcome.isFailed).toNat false := by
  unfold connectHandler
  split
  · rename_i operational
    rw [operational]
    cases answers.outcome with
    | again => exact Goes.refl chain
    | done =>
      have pulled : Goes chain (if answers.more then chain.onThis answers .wantRead .pull .tls else chain) 0 false := by
        split
        · exact (Goes.refl chain).onThis memory rfl nofun nofun
        · exact Goes.refl chain
      dsimp only
      generalize (if answers.more then chain.onThis answers .wantRead .pull .tls else chain) = between at pulled
      have quiet : Goes chain {between with handshaking := false} 0 false := pulled.retouch rfl rfl rfl rfl rfl
      exact quiet.onNext memory rfl rfl nofun nofun
    | failed state bad => exact (Goes.refl chain).onThis memory rfl nofun nofun
  · rename_i dead
    rw [Bool.not_eq_true _ |>.mp dead]
    exact Goes.refl chain

theorem recvHandler_goes : Goes chain (chain.recvHandler answers) answers.outcome.isFailed.toNat false := by
  unfold recvHandler
  cases answers.outcome with
  | again => exact Goes.refl chain
  | done =>
    dsimp only
    split
    · exact (Goes.refl chain).onThis memory rfl nofun nofun
    · exact Goes.refl chain
  | failed state bad => exact (Goes.refl chain).onThis memory rfl nofun nofun

theorem tlsLayerConnect_goes (state : XiState) : Goes chain (chain.tlsLayerConnect answers state)
    (state != .ok || (chain.operational .tls && answers.outcome.isFailed)).toNat false := by
  unfold tlsLayerConnect
  split
  · rename_i ready
    rw [ready.2]
    exact connectHandler_goes memory
  · rename_i unready
    have goes : Goes chain (chain.onNext answers state .connect .tls) (0 + (state != .ok).toNat) false :=
      (Goes.refl chain).onNext memory rfl rfl nofun nofun
    refine goes.cast ?_
    cases fine : state != .ok with
    | true => rfl
    | false =>
      have dead : chain.operational .tls = false := by
        cases operational : chain.operational .tls with
        | false => rfl
        | true => exact absurd ⟨operational,by simpa using fine⟩ unready
      rw [dead]
      rfl

theorem tlsLayerPull_goes (state : XiState) :
    Goes chain (chain.tlsLayerPull answers state) (chain.deferredBegins answers (.layer .pull .tls state)).toNat false := by
  unfold tlsLayerPull deferredBegins
  dsimp only
  split
  · rename_i operational
    split
    · exact (connectHandler_goes memory).cast (by rw [operational]; rfl)
    · exact recvHandler_goes memory
  · exact (Goes.refl chain).onThis memory rfl nofun nofun

theorem tlsLayerClose_goes (state : XiState) : Goes chain (chain.tlsLayerClose answers state) 1 false := by
  unfold tlsLayerClose
  split
  · exact (Goes.refl chain).onPrev memory rfl rfl nofun nofun
  · exact (Goes.refl chain).onThis memory rfl nofun nofun

theorem tlsLayerCloseExternally_goes (state : XiState) : Goes chain (chain.tlsLayerCloseExternally answers state) 1 false := by
  have quiet : Goes chain {chain.setData .tls false with resourceOpen := false,handshaking := false} 0 false :=
    .quiet rfl rfl rfl id (.inl rfl)
  unfold tlsLayerCloseExternally
  split
  · exact ⟨⟨[],(List.append_nil _).symm,fun _ member => (List.not_mem_nil member).elim,Nat.zero_add _⟩,rfl,id,.inl rfl⟩
  · dsimp only
    split
    · rename_i failed
      have goes : Goes chain ({chain.setData .tls false with resourceOpen := false,handshaking := false}.onThis answers state
          .connect .tls) (0 + (state != .ok).toNat) false := quiet.onThis memory rfl nofun nofun
      refine goes.cast ?_
      rw [bne_iff_ne.mpr failed.1]
      rfl
    · exact quiet.onNext memory rfl rfl nofun nofun

/-- The close that has waited goes on. -/
theorem resourceClosed_goes (state : XiState) : Goes chain (chain.resourceClosed answers state) 0 false := by
  unfold resourceClosed
  cases waits : chain.resourceWaits with
  | zero => exact Goes.refl chain
  | succ waiting =>
    obtain ⟨⟨posted,queue,leaves,count⟩,told,data,same⟩ :=
      @tlsLayerCloseExternally_goes {chain with resourceWaits := waiting} answers memory state
    refine ⟨⟨posted,queue,fun deferred member => ?_,?_⟩,told,data,?_⟩
    · exact ⟨(leaves deferred member).late,(leaves deferred member).callback,(leaves deferred member).torn,(leaves deferred member).opened⟩
    · rw [waits]
      exact count
    · refine .inl ?_
      unfold tlsLayerCloseExternally onThis onNext continueWith
      rw [memory]
      dsimp only
      split
      · rfl
      · split <;> rfl

end Tls

section Mqtt

variable {chain : Chain} {answers : Answers} (memory : answers.alloc = true)
include memory

theorem mqttCodecLayerInit_goes (state : XiState) : Goes chain (chain.mqttCodecLayerInit answers state) 0 false := by
  have quiet : Goes chain (chain.setData .mqttCodec true) 0 false := .quiet rfl rfl rfl id (.inl rfl)
  unfold mqttCodecLayerInit
  split
  · exact quiet.onPrev memory rfl rfl nofun nofun
  · exact (Goes.refl chain).onPrev memory rfl rfl nofun nofun

theorem mqttCodecLayerConnect_goes (state : XiState) :
    Goes chain (chain.mqttCodecLayerConnect answers state) (state != .ok).toNat false := by
  have goes : Goes chain (chain.onNext answers state .connect .mqttCodec) (0 + (state != .ok).toNat) false :=
    (Goes.refl chain).onNext memory rfl rfl nofun nofun
  exact goes.cast (Nat.zero_add _)

theorem mqttCodecLayerClose_goes (state : XiState) : Goes chain (chain.mqttCodecLayerClose answers state) 1 false := by
  unfold mqttCodecLayerClose
  split
  · exact (Goes.refl chain).onPrev memory rfl rfl nofun nofun
  · exact (Goes.refl chain).onThis memory rfl nofun nofun

theorem mqttCodecLayerCloseExternally_goes (state : XiState) :
    Goes chain (chain.mqttCodecLayerCloseExternally answers state) 1 false := by
  have quiet : Goes chain (chain.setData .mqttCodec false) 0 false := .quiet rfl rfl rfl id (.inl rfl)
  exact quiet.onNext memory rfl rfl nofun nofun

theorem mqttCodecLayerFails_goes (state : XiState) :
    Goes chain (chain.mqttCodecLayerFails answers state) (chain.operational .mqttCodec).toNat false := by
  have closes : Goes chain (chain.onPrev answers state .close .mqttCodec) 1 false := (Goes.refl chain).onPrev memory rfl rfl nofun nofun
  exact closes.guarded

theorem mqttLogicLayerConnect_goes (state : XiState) :
    Goes chain (chain.mqttLogicLayerConnect answers state) (state != .ok).toNat false := by
  unfold mqttLogicLayerConnect
  split
  · rename_i failed
    have goes : Goes chain (chain.onNext answers state .connect .mqttLogic) (0 + (state != .ok).toNat) false :=
      (Goes.refl chain).onNext memory rfl rfl nofun fun same => absurd (by cases same; rfl) failed
    exact goes.cast (Nat.zero_add _)
  · rename_i fine
    have fine : state = .ok := Decidable.not_not.mp fine
    subst fine
    split
    · exact .quiet rfl rfl rfl id (.inl rfl)
    · exact Goes.refl chain

theorem mqttLogicLayerClose_goes (state : XiState) : Goes chain (chain.mqttLogicLayerClose answers state) 1 false := by
  unfold mqttLogicLayerClose
  split
  · exact (Goes.refl chain).onPrev memory rfl rfl nofun nofun
  · exact (Goes.refl chain).onThis memory rfl nofun nofun

theorem mqttLogicLayerTerminal_goes :
    Goes chain (chain.mqttLogicLayerTerminal answers) (chain.operational .mqttLogic).toNat false := by
  have closes : Goes chain (chain.onThis answers .backoffTerminal .close .mqttLogic) 1 false :=
    (Goes.refl chain).onThis memory rfl nofun nofun
  exact closes.guarded

theorem doReconnect_goes : Goes chain (chain.doReconnect answers) (chain.hasData .mqttLogic).toNat false := by
  have closes : Goes chain (chain.onPrev answers .timeout .close .mqttLogic) 1 false :=
    (Goes.refl chain).onPrev memory rfl rfl nofun nofun
  exact closes.guarded

theorem doShutdown_goes : Goes chain (chain.doShutdown answers) (chain.hasData .mqttLogic).toNat false :=
  (mqttLogicLayerClose_goes memory .ok).guarded

theorem doMqttConnect_goes (state : XiState) : Goes chain (chain.doMqttConnect answers state)
    (state != .ok && (chain.connecting && chain.operational .mqttLogic)).toNat false := by
  unfold doMqttConnect
  split
  · rename_i ready
    have data : chain.hasData .mqttLogic = true := (Bool.and_eq_true _ _ ▸ ready.2).2
    rw [ready.1,ready.2]
    split
    · rename_i fine
      subst fine
      have quiet : Goes chain {chain with connecting := false,connectionState := .opened} 0 false :=
        .quiet rfl rfl rfl id (.inr ⟨rfl,data⟩)
      exact quiet.onNext memory rfl rfl nofun fun _ => data
    · have quiet : Goes chain {chain with connecting := false} 0 false := .quiet rfl rfl rfl id (.inl rfl)
      have goes : Goes chain ({chain with connecting := false}.onNext answers state .connect .mqttLogic) (0 + (state != .ok).toNat) false :=
        quiet.onNext memory rfl rfl nofun fun _ => data
      exact goes.cast (by rw [Nat.zero_add,Bool.and_self,Bool.and_true])
  · rename_i unready
    have none' : (chain.connecting && chain.operational .mqttLogic) = false := by
      cases both : chain.connecting && chain.operational .mqttLogic with
      | false => rfl
      | true => exact absurd (Bool.and_eq_true _ _ ▸ both) unready
    rw [none',Bool.and_false]
    exact Goes.refl chain

theorem doMqttConnectTimeout_goes : Goes chain (chain.doMqttConnectTimeout answers) chain.connecting.toNat false := by
  have quiet : Goes chain {chain with connecting := false} 0 false := .quiet rfl rfl rfl id (.inl rfl)
  have closes : Goes chain ({chain with connecting := false}.onNext answers .timeout .connect .mqttLogic) 1 false :=
    quiet.onNext memory rfl rfl nofun nofun
  exact closes.guarded

theorem stopTask_goes (data : chain.hasData .mqttLogic = true) :
    Goes chain (chain.stopTask answers) (chain.stopBegins answers.stop).toNat false := by
  unfold stopTask stopBegins
  cases answers.stop with
  | nothing => exact Goes.refl chain
  | connect => exact doMqttConnect_goes memory .timeout
  | keepalive => exact (doReconnect_goes memory).cast (by rw [data])
  | shutdown => exact (doShutdown_goes memory).cast (by rw [data])

theorem mqttLogicLayerCloseExternally_goes (state : XiState) : Goes chain (chain.mqttLogicLayerCloseExternally answers state)
    (1 + (chain.deferredBegins answers (.layer .closeExternally .mqttLogic state)).toNat) false := by
  unfold mqttLogicLayerCloseExternally deferredBegins
  dsimp only
  split
  · rename_i failed
    have goes : Goes chain (chain.onThis answers state .connect .mqttLogic) (0 + (state != .ok).toNat) false :=
      (Goes.refl chain).onThis memory rfl nofun nofun
    refine goes.cast ?_
    rw [bne_iff_ne.mpr failed.1,failed.2]
    rfl
  · rename_i whole
    have whole : (!(state != .ok && chain.layerState .mqttLogic == .connecting)) = true := by
      cases both : state != .ok && chain.layerState .mqttLogic == .connecting with
      | false => rfl
      | true =>
        obtain ⟨failed,connecting⟩ := Bool.and_eq_true _ _ ▸ both
        exact absurd ⟨bne_iff_ne.mp failed,eq_of_beq connecting⟩ whole
    rw [whole,Bool.true_and]
    split
    · rename_i data
      rw [data,Bool.true_and]
      have stopped := stopTask_goes memory data
      obtain ⟨⟨posted,queue,leaves,count⟩,told,_,same⟩ := stopped
      have torn : Goes chain {(chain.stopTask answers).setData .mqttLogic false with connecting := false}
          (chain.stopBegins answers.stop).toNat false :=
        ⟨⟨posted,queue,fun deferred member => ⟨(leaves deferred member).late,(leaves deferred member).callback,fun _ _ => rfl,
          (leaves deferred member).opened⟩,count⟩,told,fun _ => data,same⟩
      have goes : Goes chain ({(chain.stopTask answers).setData .mqttLogic false with connecting := false}.onNext answers state
          .closeExternally .mqttLogic) ((chain.stopBegins answers.stop).toNat + 1) false :=
        torn.onNext memory rfl rfl (fun _ => rfl) nofun
      exact goes.cast (Nat.add_comm _ _)
    · rename_i absent
      rw [Bool.not_eq_true _ |>.mp absent]
      exact (Goes.refl chain).onNext memory rfl rfl (fun _ => Bool.not_eq_true _ |>.mp absent) nofun

end Mqtt

section ControlTopic

variable {chain : Chain} {answers : Answers} (memory : answers.alloc = true)
include memory

theorem controlTopicLayerConnect_goes (state : XiState) : Goes chain (chain.controlTopicLayerConnect answers state)
    ((state != .ok) || (answers.outcome.isFailed || !answers.subscribes)).toNat (state == .ok) := by
  have closed (calls : Bool) (state : XiState) : Goes chain (chain.onPrev answers state .close .controlTopic) 1 calls := by
    have goes : Goes chain (chain.onPrev answers state .close .controlTopic) (0 + 1) false :=
      (Goes.refl chain).onPrev memory rfl rfl nofun nofun
    obtain ⟨⟨posted,queue,leaves,count⟩,told,data,same⟩ := goes
    exact ⟨⟨posted,queue,fun deferred member => ⟨(leaves deferred member).late,
      fun callback => Bool.noConfusion ((leaves deferred member).callback callback),(leaves deferred member).torn,
      (leaves deferred member).opened⟩,count⟩,told,data,same⟩
  have told : Goes chain (chain.connectionStateChanged answers .ok) 0 true := by
    unfold connectionStateChanged
    rw [memory]
    refine ⟨⟨[.connectionCallback .ok],rfl,fun deferred member => ?_,Nat.zero_add _⟩,rfl,id,.inl rfl⟩
    cases List.mem_singleton.mp member
    exact ⟨rfl,fun _ => rfl,nofun,nofun⟩
  unfold controlTopicLayerConnect
  split
  · rename_i fine
    subst fine
    cases answers.outcome with
    | failed state bad => exact closed true state
    | again =>
      cases answers.subscribes with
      | true => exact told
      | false => exact told.onPrev memory rfl rfl nofun nofun
    | done =>
      cases answers.subscribes with
      | true => exact told
      | false => exact told.onPrev memory rfl rfl nofun nofun
  · rename_i failed
    rw [bne_iff_ne.mpr failed]
    exact closed _ state

end ControlTopic

section Steps

variable {chain : Chain} {answers : Answers} (memory : answers.alloc = true)

theorem toNat_split (fine other : Bool) : (!fine || other).toNat = (!fine).toNat + (fine && other).toNat := by
  cases fine <;> cases other <;> rfl

include memory

/-- Every call but the first ones, the last one and the callback itself. -/
theorem runDeferred_goes : ∀ deferred : Deferred, deferred.early = false → deferred.isCallback = false →
    (∀ state, deferred ≠ .layer .closeExternally .controlTopic state) →
    Goes chain (chain.runDeferred answers deferred) (deferred.closing.toNat + (chain.deferredBegins answers deferred).toNat)
      deferred.opens
  | .layer .init .io state,_,_,_ => (ioNetLayerInit_goes memory state).cast (Nat.zero_add _).symm
  | .layer .init .tls state,_,_,_ => (tlsLayerInit_goes memory state).cast (Nat.zero_add _).symm
  | .layer .init .mqttCodec state,_,_,_ => mqttCodecLayerInit_goes memory state
  | .layer .connect .io state,_,_,_ => (ioNetLayerConnect_goes memory state).cast (toNat_split _ _)
  | .layer .connect .tls state,_,_,_ => (tlsLayerConnect_goes memory state).cast (toNat_split _ _)
  | .layer .connect .mqttCodec state,_,_,_ => mqttCodecLayerConnect_goes memory state
  | .layer .connect .mqttLogic state,_,_,_ => mqttLogicLayerConnect_goes memory state
  | .layer .connect .controlTopic state,_,_,_ => (controlTopicLayerConnect_goes memory state).cast (toNat_split _ _)
  | .layer .close .io state,_,_,_ => ioNetLayerClose_goes memory state
  | .layer .close .tls state,_,_,_ => tlsLayerClose_goes memory state
  | .layer .close .mqttCodec state,_,_,_ => mqttCodecLayerClose_goes memory state
  | .layer .close .mqttLogic state,_,_,_ => mqttLogicLayerClose_goes memory state
  | .layer .closeExternally .io state,_,_,_ => ioNetLayerCloseExternally_goes memory state
  | .layer .closeExternally .tls state,_,_,_ => tlsLayerCloseExternally_goes memory state
  | .layer .closeExternally .mqttCodec state,_,_,_ => mqttCodecLayerCloseExternally_goes memory state
  | .layer .closeExternally .mqttLogic state,_,_,_ => mqttLogicLayerCloseExternally_goes memory state
  | .layer .pull .tls state,_,_,_ => (tlsLayerPull_goes memory state).cast (Nat.zero_add _).symm
  | .layer .pull .io _,_,_,_ | .layer .pull .mqttCodec _,_,_,_ | .layer .pull .mqttLogic _,_,_,_
  | .layer .pull .controlTopic _,_,_,_ => Goes.refl chain
  | .layer .push layer _,_,_,_ => by cases layer <;> exact Goes.refl chain
  | .layer .postConnect layer _,_,_,_ => by cases layer <;> exact Goes.refl chain
  | .layer .closeExternally .controlTopic state,_,_,last => absurd rfl (last state)

/-- What goes on outside of the queue. -/
theorem perform_goes (input : Input) (outside : input ≠ .run) :
    Goes chain (chain.perform input answers) (chain.begins answers input).toNat false := by
  cases input with
  | run => exact absurd rfl outside
  | socketReady =>
    unfold perform begins
    dsimp only
    split
    · rename_i waits
      rw [waits]
      exact ioNetLayerConnect_goes memory .ok
    · rename_i idle
      rw [Bool.not_eq_true _ |>.mp idle]
      exact Goes.refl chain
  | receives => exact ioNetLayerReceives_goes memory
  | ioFails state => exact ioNetLayerFails_goes memory state
  | codecFails state => exact mqttCodecLayerFails_goes memory state
  | terminal => exact mqttLogicLayerTerminal_goes memory
  | reconnect => exact doReconnect_goes memory
  | shutdown => exact doShutdown_goes memory
  | connectEnds state => exact doMqttConnect_goes memory state
  | connectTimeout => exact doMqttConnectTimeout_goes memory
  | resourceClosed state => exact resourceClosed_goes memory state

end Steps

/-- The connection is opened by a call that waits, by the server, or it is open. -/
def Waits (chain : Chain) : Prop := (∃ deferred ∈ chain.queue, deferred.opening = true) ∨ chain.handshaking = true ∨
  chain.connecting = true ∨ chain.connectionState = .opened

/-- The logic layer works, and the connection opens or is open. -/
structure Alive (chain : Chain) : Prop where
  operational : chain.operational .mqttLogic = true
  waits : chain.Waits

/-- A step that takes nothing from a connection that opens. -/
structure Lasts (before after : Chain) : Prop where
  queue : ∃ posted, after.queue = before.queue ++ posted
  handshaking : after.handshaking = before.handshaking
  connecting : after.connecting = before.connecting
  state : after.connectionState = before.connectionState
  operational : after.operational .mqttLogic = before.operational .mqttLogic

section Opening

variable {before between after chain : Chain} {answers : Answers} {state : XiState} {func : LayerFunc} {source : Layer}
  {target : Option Layer} {alloc : Bool} {deferred : Deferred}

theorem Lasts.alive (lasts : Lasts before after) (alive : Alive before) : Alive after := by
  obtain ⟨posted,queue⟩ := lasts.queue
  refine ⟨lasts.operational.trans alive.operational,?_⟩
  unfold Waits
  rw [queue,lasts.handshaking,lasts.connecting,lasts.state]
  exact alive.waits.imp_left fun ⟨deferred,member,opening⟩ => ⟨deferred,List.mem_append_left posted member,opening⟩

theorem Lasts.quiet (queue : after.queue = before.queue) (handshaking : after.handshaking = before.handshaking)
    (connecting : after.connecting = before.connecting) (state : after.connectionState = before.connectionState)
    (operational : after.operational .mqttLogic = before.operational .mqttLogic) : Lasts before after :=
  ⟨⟨[],queue.trans (List.append_nil _).symm⟩,handshaking,connecting,state,operational⟩

theorem Lasts.refl (chain : Chain) : Lasts chain chain := .quiet rfl rfl rfl rfl rfl

/-- Only a call from the logic layer moves its state. -/
theorem Lasts.continueWith (lasts : Lasts before between) (other : source ≠ .mqttLogic) :
    Lasts before (between.continueWith state func source target alloc) := by
  obtain ⟨⟨posted,queue⟩,handshaking,connecting,same,operational⟩ := lasts
  cases target with
  | none => exact ⟨⟨posted,queue⟩,handshaking,connecting,same,operational⟩
  | some target =>
    cases alloc with
    | false => exact ⟨⟨posted,queue⟩,handshaking,connecting,same,operational⟩
    | true =>
      refine ⟨⟨posted ++ [.layer func target state],?_⟩,handshaking,connecting,same,?_⟩
      · rw [← List.append_assoc,← queue]
        rfl
      · rw [← operational]
        simp only [Chain.operational,Chain.continueWith,if_true,Function.update_of_ne other.symm]

theorem ioNetLayerInit_lasts : Lasts chain (chain.ioNetLayerInit answers) := by
  unfold ioNetLayerInit
  split
  · exact .refl chain
  · split
    · split
      · exact (Lasts.refl chain).continueWith nofun
      · have quiet : Lasts chain (chain.setData .io true) := .quiet rfl rfl rfl rfl rfl
        exact quiet.continueWith nofun
    · exact (Lasts.refl chain).continueWith nofun

theorem ioNetLayerConnect_lasts : Lasts chain (chain.ioNetLayerConnect answers state) := by
  have quiet (waits : Bool) : Lasts chain {chain with socketWaits := waits} := .quiet rfl rfl rfl rfl rfl
  unfold ioNetLayerConnect
  split
  · exact (Lasts.refl chain).continueWith nofun
  · split
    · split
      · exact quiet true
      · exact (quiet false).continueWith nofun
      · exact (quiet false).continueWith nofun
    · exact (Lasts.refl chain).continueWith nofun

theorem recvHandler_lasts : Lasts chain (chain.recvHandler answers) := by
  unfold recvHandler
  split
  · exact .refl chain
  · split
    · exact (Lasts.refl chain).continueWith nofun
    · exact .refl chain
  · exact (Lasts.refl chain).continueWith nofun

theorem controlTopicLayerConnect_lasts : Lasts chain (chain.controlTopicLayerConnect answers state) := by
  have told : Lasts chain (chain.connectionStateChanged answers .ok) := by
    unfold connectionStateChanged
    split
    · exact ⟨⟨[_],rfl⟩,rfl,rfl,rfl,rfl⟩
    · exact .refl chain
  unfold controlTopicLayerConnect
  split
  · split
    · exact (Lasts.refl chain).continueWith nofun
    · split
      · exact told
      · exact told.continueWith nofun
  · exact (Lasts.refl chain).continueWith nofun

/-- A guard that keeps a step from closing. -/
theorem Alive.guarded {guard : Bool} (alive : Alive chain) (fine : guard = false) : Alive (if guard then after else chain) := by
  rw [fine]
  exact alive

variable (memory : answers.alloc = true)
include memory

/-- A call that goes on opening the connection. -/
theorem alive_continueWith {target : Layer} (other : source ≠ .mqttLogic) (operational : chain.operational .mqttLogic = true)
    (opening : (Deferred.layer func target state).opening = true) :
    Alive (chain.continueWith state func source (some target) answers.alloc) := by
  refine ⟨((Lasts.refl chain).continueWith other).operational.trans operational,.inl ⟨.layer func target state,?_,opening⟩⟩
  unfold continueWith
  rw [memory]
  exact List.mem_append_right _ (List.mem_singleton_self _)

theorem connectHandler_alive (alive : Alive chain) (fine : (chain.operational .tls && answers.outcome.isFailed) = false) :
    Alive (chain.connectHandler answers) := by
  unfold connectHandler
  split
  · rename_i operational
    rw [operational,Bool.true_and] at fine
    cases outcome : answers.outcome with
    | again => exact alive
    | done =>
      have pulled : Lasts chain (if answers.more then chain.onThis answers .wantRead .pull .tls else chain) := by
        split
        · exact (Lasts.refl chain).continueWith nofun
        · exact .refl chain
      dsimp only
      generalize (if answers.more then chain.onThis answers .wantRead .pull .tls else chain) = between at pulled
      have works : Chain.operational {between with handshaking := false} .mqttLogic = true := pulled.operational.trans alive.operational
      exact alive_continueWith memory nofun works rfl
    | failed state bad =>
      rw [outcome] at fine
      cases fine
  · exact alive

theorem tlsLayerInit_alive (operational : chain.operational .mqttLogic = true)
    (fine : chain.deferredBegins answers (.layer .init .tls state) = false) : Alive (chain.tlsLayerInit answers state) := by
  unfold deferredBegins at fine
  unfold tlsLayerInit
  dsimp only at fine
  split at fine
  · rename_i made
    rw [if_pos made]
    cases outcome : answers.outcome with
    | again =>
      refine ⟨operational,.inl ⟨.layer .init .tls state,?_,rfl⟩⟩
      dsimp only
      rw [if_pos memory]
      exact List.mem_append_right _ (List.mem_singleton_self _)
    | done =>
      dsimp only
      have quiet : Lasts {chain.setData .tls true with resourceOpen := false,handshaking := true}
          (onPrev {chain.setData .tls true with resourceOpen := false,handshaking := true} answers .ok .init .tls) :=
        (Lasts.refl _).continueWith nofun
      exact quiet.alive ⟨operational,.inr (.inl rfl)⟩
    | failed state bad =>
      rw [outcome] at fine
      cases fine
  · cases fine

/-- A call that closes nothing leaves the connection on its way. -/
theorem runDeferred_alive (granted : deferred.silent = true → answers.layerAlloc = true) (late : deferred.early = false)
    (stays : deferred.closing = false) (fine : chain.deferredBegins answers deferred = false)
    (operational : chain.operational .mqttLogic = true) (waits : deferred.opening = true ∨ chain.Waits) :
    Alive (chain.runDeferred answers deferred) := by
  have alive (idle : deferred.opening = false) : Alive chain := ⟨operational,waits.resolve_left (by simp [idle])⟩
  have same : ∀ {after : Chain}, deferred.opening = false → Lasts chain after → Alive after :=
    fun idle lasts => lasts.alive (alive idle)
  match deferred with
  | .connectionCallback state => exact same rfl (.quiet rfl rfl rfl rfl rfl)
  | .layer .init .io _ => exact same rfl ioNetLayerInit_lasts
  | .layer .init .tls _ => exact tlsLayerInit_alive memory operational fine
  | .layer .init .mqttCodec _ =>
    change Alive (chain.mqttCodecLayerInit answers _)
    unfold mqttCodecLayerInit
    split
    · have works : Chain.operational (chain.setData .mqttCodec true) .mqttLogic = true := operational
      exact alive_continueWith memory nofun works rfl
    · exact alive_continueWith memory nofun operational rfl
  | .layer .connect .io _ => exact same rfl ioNetLayerConnect_lasts
  | .layer .connect .tls state =>
    have ok : state = .ok := by simpa [Deferred.closing] using stays
    subst ok
    change Alive (chain.tlsLayerConnect answers .ok)
    unfold tlsLayerConnect
    split
    · exact connectHandler_alive memory (alive rfl) fine
    · exact alive_continueWith memory nofun operational rfl
  | .layer .connect .mqttCodec state =>
    have ok : state = .ok := by simpa [Deferred.closing] using stays
    subst ok
    exact alive_continueWith memory nofun operational rfl
  | .layer .connect .mqttLogic state =>
    have ok : state = .ok := by simpa [Deferred.closing] using stays
    subst ok
    change Alive (chain.mqttLogicLayerConnect answers .ok)
    unfold mqttLogicLayerConnect
    rw [if_neg (by simp),if_pos ⟨operational,granted rfl⟩]
    exact ⟨operational,.inr (.inr (.inl rfl))⟩
  | .layer .connect .controlTopic _ => exact same rfl controlTopicLayerConnect_lasts
  | .layer .pull .tls state =>
    change Alive (chain.tlsLayerPull answers state)
    unfold deferredBegins at fine
    unfold tlsLayerPull
    dsimp only at fine
    split at fine
    · rename_i works
      rw [if_pos works]
      split
      · exact connectHandler_alive memory (alive rfl) (by rw [fine,Bool.and_false])
      · exact same rfl recvHandler_lasts
    · cases fine
  | .layer .pull .io _ | .layer .pull .mqttCodec _ | .layer .pull .mqttLogic _ | .layer .pull .controlTopic _ => exact alive rfl
  | .layer .push layer _ => cases layer <;> exact alive rfl
  | .layer .postConnect layer _ => cases layer <;> exact alive rfl

/-- What goes on outside of the queue and closes nothing. -/
theorem perform_alive {input : Input} (outside : input ≠ .run) (fine : chain.begins answers input = false)
    (waits : chain.resourceWaits = 0) (alive : Alive chain) : Alive (chain.perform input answers) := by
  cases input with
  | run => exact absurd rfl outside
  | socketReady =>
    unfold perform
    dsimp only
    split
    · exact ioNetLayerConnect_lasts.alive alive
    · exact alive
  | receives =>
    unfold perform ioNetLayerReceives
    dsimp only
    split
    · have lasts : Lasts chain (chain.onNext answers .ok .pull .io) := (Lasts.refl chain).continueWith nofun
      exact lasts.alive alive
    · exact alive
  | ioFails state => exact alive.guarded fine
  | codecFails state => exact alive.guarded fine
  | terminal => exact alive.guarded fine
  | reconnect => exact alive.guarded fine
  | shutdown => exact alive.guarded fine
  | connectEnds state =>
    unfold perform doMqttConnect
    dsimp only
    split
    · rename_i ready
      have ok : state = .ok := by
        unfold begins at fine
        simpa [ready.1,ready.2] using fine
      subst ok
      rw [if_pos rfl]
      refine ⟨?_,.inr (.inr (.inr ?_))⟩
      · unfold onNext continueWith
        rw [memory]
        have data : chain.hasData .mqttLogic = true := (Bool.and_eq_true _ _ ▸ ready.2).2
        simp [operational,data,Layer.next,LayerState.getNextLayerState,LayerState.notOperational]
      · unfold onNext continueWith
        rw [memory]
        rfl
    · exact alive
  | connectTimeout => exact alive.guarded fine
  | resourceClosed state =>
    unfold perform resourceClosed
    rw [waits]
    exact alive

end Opening

/-- The user was told of the end. -/
def toldEnd (chain : Chain) : Nat := chain.told.countP fun told => ended told.1

/-- Nothing closes, and no callback waits. -/
def Quiet (chain : Chain) : Prop := chain.underWay = 0 ∧ ∀ deferred ∈ chain.queue, deferred.isCallback = false

/-- The data of the logic layer is torn down once at most, and the user is told of the end once at most; both have happened when
all that began to close is closed, and until something begins to close the connection opens or is open. -/
structure ClosedOnce (chain : Chain) : Prop where
  tornDown : chain.teardowns ≤ 1
  most : chain.toldEnd ≤ 1
  once : chain.Quiet → chain.closes ≠ 0 → chain.teardowns = 1 ∧ chain.toldEnd = 1
  lasts : chain.closes = 0 → chain.Waits

/-- The control topic layer is closed only when no callback of an open connection waits, the dispatcher has the memory for the calls,
and so have the layers that would not tell of its lack. -/
structure Careful (chain : Chain) (event : Input × Answers) : Prop where
  told : event.1 = .run → ∀ state queue, chain.queue = .layer .closeExternally .controlTopic state :: queue →
    ∀ deferred ∈ queue, deferred.opens = false
  memory : event.2.alloc = true
  granted : event.1 = .run → ∀ deferred queue, chain.queue = deferred :: queue → deferred.silent = true → event.2.layerAlloc = true

/-- A step begins a close only when none was begun before. -/
def Single (chain : Chain) (event : Input × Answers) : Prop := chain.begins event.2 event.1 = true → chain.closes = 0

instance (chain : Chain) (event : Input × Answers) : Decidable (Single chain event) :=
  inferInstanceAs (Decidable (chain.begins event.2 event.1 = true → chain.closes = 0))

/-- The last layer closes only when nobody is yet to be told of an open connection. -/
def lastTold : List Deferred → Bool
  | .layer .closeExternally .controlTopic _ :: queue => queue.all fun deferred => !deferred.opens
  | _ => true

theorem lastTold_iff (queue : List Deferred) : lastTold queue = true ↔
    ∀ state rest, queue = .layer .closeExternally .controlTopic state :: rest → ∀ deferred ∈ rest, deferred.opens = false := by
  constructor
  · rintro told state rest rfl deferred member
    exact Bool.not_eq_true' _ |>.mp (List.all_eq_true.mp told deferred member)
  · intro told
    unfold lastTold
    split
    · exact List.all_eq_true.mpr fun deferred member => Bool.not_eq_true' _ |>.mpr (told _ _ rfl deferred member)
    · rfl

theorem head_iff {queue : List Deferred} {granted : Prop} : (∀ deferred ∈ queue.head?, deferred.silent = true → granted) ↔
    ∀ deferred rest, queue = deferred :: rest → deferred.silent = true → granted := by
  constructor
  · rintro head deferred rest rfl
    exact head deferred rfl
  · intro head deferred first
    obtain ⟨rest,same⟩ := List.head?_eq_some_iff.mp first
    exact head deferred rest same

instance (chain : Chain) (event : Input × Answers) : Decidable (Careful chain event) :=
  decidable_of_iff ((event.1 = .run → lastTold chain.queue = true) ∧ event.2.alloc = true ∧
      (event.1 = .run → ∀ deferred ∈ chain.queue.head?, deferred.silent = true → event.2.layerAlloc = true))
    ⟨fun ⟨told,memory,granted⟩ => ⟨fun run => (lastTold_iff _).mp (told run),memory,fun run => head_iff.mp (granted run)⟩,
      fun ⟨told,memory,granted⟩ => ⟨fun run => (lastTold_iff _).mpr (told run),memory,fun run => head_iff.mpr (granted run)⟩⟩

/-- The layers above the codec are being made. -/
structure Early (chain : Chain) (layer : Layer) : Prop where
  first : layer = .controlTopic ∨ layer = .mqttLogic
  queue : ∃ state, chain.queue = [.layer .init layer state]
  data : ∀ other, other ≠ .controlTopic → chain.hasData other = false
  waits : chain.resourceWaits = 0
  socket : chain.socketWaits = false
  idle : chain.connecting = false
  untold : chain.told = []
  none' : chain.closes = 0
  whole : chain.teardowns = 0
  state : chain.connectionState = .uninitialized

/-- The connection opens or is open, or closes. -/
structure Opened (chain : Chain) : Prop where
  late : ∀ deferred ∈ chain.queue, deferred.early = false
  underWay : chain.underWay = chain.closes
  going : ended chain.connectionState = false
  untold : chain.toldEnd = 0
  teardowns : chain.teardowns + (chain.hasData .mqttLogic).toNat = 1
  torn : ∀ state, .layer .closeExternally .controlTopic state ∈ chain.queue → chain.hasData .mqttLogic = false
  alive : chain.closes = 0 → Alive chain

/-- A close has come to its end. The user is told of it or will be, and of each that is under way. -/
structure Over (chain : Chain) : Prop where
  late : ∀ deferred ∈ chain.queue, deferred.early = false
  begun : chain.closes ≠ 0
  ended : ended chain.connectionState = true
  torn : chain.hasData .mqttLogic = false
  teardowns : chain.teardowns = 1
  unopened : ∀ state, .layer .connect .controlTopic state ∈ chain.queue → state ≠ .ok
  each : chain.underWay + chain.queue.countP Deferred.isCallback + chain.toldEnd = chain.closes

section Phases

variable {chain after : Chain} {answers : Answers} {queue : List Deferred} {closing closes : Nat} {calls : Bool}

/-- A step with its counts. -/
def counted (before after : Chain) : Chain :=
  {after with
    closes := before.closes + (after.underWay - before.underWay)
    teardowns := before.teardowns + (before.hasData .mqttLogic && !after.hasData .mqttLogic).toNat}

theorem Goes.underWay (goes : Goes chain after closes calls) : after.underWay = chain.underWay + closes := by
  obtain ⟨posted,same,_,count⟩ := goes.posted
  unfold Chain.underWay
  rw [same,List.countP_append]
  omega

theorem teardowns_eq {before after : Bool} {teardowns : Nat} (one : teardowns + before.toNat = 1) (kept : after = true → before = true) :
    teardowns + (before && !after).toNat + after.toNat = 1 := by
  cases before <;> cases after <;> simp_all

theorem underWay_cons {deferred : Deferred} (same : chain.queue = deferred :: queue) :
    Chain.underWay {chain with queue := queue} + deferred.closing.toNat = chain.underWay := by
  unfold Chain.underWay
  rw [same,List.countP_cons]
  cases deferred.closing
  · simp
  · simp only [Bool.toNat_true,if_true]
    omega

theorem counted_self : counted chain chain = chain := by
  unfold counted
  rw [Nat.sub_self,Nat.add_zero]
  cases chain.hasData .mqttLogic <;> rfl

theorem step_run (same : chain.queue = []) : chain.step (.run,answers) = chain := by
  have idle : chain.perform .run answers = chain := by
    unfold perform
    rw [same]
  change counted chain (chain.perform .run answers) = chain
  rw [idle,counted_self]

theorem step_run_cons {deferred : Deferred} (same : chain.queue = deferred :: queue) :
    chain.step (.run,answers) = counted chain (runDeferred {chain with queue := queue} answers deferred) := by
  have turn : chain.perform .run answers = runDeferred {chain with queue := queue} answers deferred := by
    unfold perform
    rw [same]
  change counted chain (chain.perform .run answers) = _
  rw [turn]

theorem begins_nil (same : chain.queue = []) : chain.begins answers .run = false := by
  change (match chain.queue with
    | [] => false
    | deferred :: _ => chain.deferredBegins answers deferred) = _
  rw [same]

theorem begins_run {deferred : Deferred} (same : chain.queue = deferred :: queue) :
    chain.begins answers .run = deferredBegins {chain with queue := queue} answers deferred := by
  change (match chain.queue with
    | [] => false
    | deferred :: _ => chain.deferredBegins answers deferred) = _
  rw [same]
  rfl

/-- What a call leaves to be closed. -/
theorem Goes.counts (goes : Goes {chain with queue := queue} after (closing + closes) calls)
    (count : Chain.underWay {chain with queue := queue} + closing = chain.underWay) :
    after.underWay = chain.underWay + closes ∧ (counted chain after).closes = chain.closes + closes := by
  have underWay := goes.underWay
  have moved : after.underWay = chain.underWay + closes := by omega
  refine ⟨moved,?_⟩
  change chain.closes + (after.underWay - chain.underWay) = _
  rw [moved,Nat.add_sub_cancel_left]

theorem Opened.goes (opened : Opened chain) (rest : queue ⊆ chain.queue)
    (count : Chain.underWay {chain with queue := queue} + closing = chain.underWay)
    (goes : Goes {chain with queue := queue} after (closing + closes) calls)
    (alive : chain.closes = 0 → closes = 0 → Alive after) : Opened (counted chain after) := by
  obtain ⟨moved,closed⟩ := goes.counts count
  obtain ⟨posted,same,leaves,_⟩ := goes.posted
  refine ⟨fun deferred member => ?_,?_,?_,?_,?_,fun state member => ?_,fun none' => ?_⟩
  · have member : deferred ∈ queue ++ posted := same ▸ member
    rcases List.mem_append.mp member with old | new
    · exact opened.late deferred (rest old)
    · exact (leaves deferred new).late
  · rw [closed,← opened.underWay]
    exact moved
  · rcases goes.state with kept | ⟨going,_⟩
    · exact kept ▸ opened.going
    · exact going
  · change List.countP _ after.told = 0
    rw [goes.told]
    exact opened.untold
  · exact teardowns_eq opened.teardowns goes.data
  · have member : .layer .closeExternally .controlTopic state ∈ queue ++ posted := same ▸ member
    rcases List.mem_append.mp member with old | new
    · refine Bool.not_eq_true _ |>.mp fun data => ?_
      exact absurd (goes.data data) (Bool.not_eq_true _ |>.mpr (opened.torn state (rest old)))
    · exact (leaves _ new).torn state rfl
  · rw [closed] at none'
    obtain ⟨working,waits⟩ := alive (by omega) (by omega)
    exact ⟨working,waits⟩

/-- What goes on after a close tells the user no more of an open connection. -/
theorem Over.goes (gone : Over chain) (rest : queue ⊆ chain.queue)
    (count : Chain.underWay {chain with queue := queue} + closing = chain.underWay)
    (told : queue.countP Deferred.isCallback = chain.queue.countP Deferred.isCallback)
    (goes : Goes {chain with queue := queue} after (closing + closes) false) : Over (counted chain after) := by
  obtain ⟨moved,closed⟩ := goes.counts count
  obtain ⟨posted,same,leaves,_⟩ := goes.posted
  have absent : after.hasData .mqttLogic = false := by
    refine Bool.not_eq_true _ |>.mp fun data => ?_
    exact absurd (goes.data data) (Bool.not_eq_true _ |>.mpr gone.torn)
  have silent : posted.countP Deferred.isCallback = 0 := by
    refine List.countP_eq_zero.mpr fun deferred member callback => ?_
    exact Bool.noConfusion ((leaves deferred member).callback callback)
  refine ⟨fun deferred member => ?_,?_,?_,absent,?_,fun state member => ?_,?_⟩
  · have member : deferred ∈ queue ++ posted := same ▸ member
    rcases List.mem_append.mp member with old | new
    · exact gone.late deferred (rest old)
    · exact (leaves deferred new).late
  · have begun := gone.begun
    omega
  · rcases goes.state with kept | ⟨_,data⟩
    · exact kept ▸ gone.ended
    · exact absurd data (Bool.not_eq_true _ |>.mpr gone.torn)
  · change chain.teardowns + (chain.hasData .mqttLogic && !after.hasData .mqttLogic).toNat = 1
    rw [gone.torn]
    exact gone.teardowns
  · have member : .layer .connect .controlTopic state ∈ queue ++ posted := same ▸ member
    rcases List.mem_append.mp member with old | new
    · exact gone.unopened state (rest old)
    · rintro rfl
      exact absurd ((leaves _ new).opened rfl) (Bool.not_eq_true _ |>.mpr gone.torn)
  · rw [closed]
    change after.underWay + after.queue.countP Deferred.isCallback + List.countP _ after.told = chain.closes + closes
    rw [same,goes.told,List.countP_append,silent,Nat.add_zero,moved,← gone.each]
    change chain.underWay + closes + queue.countP Deferred.isCallback + chain.toldEnd = _
    rw [told]
    omega

/-- The callback of an open connection is no end. -/
theorem Opened.callback {state : XiState} (opened : Opened chain) (same : chain.queue = .connectionCallback state :: queue) :
    Opened (counted chain (runCallback {chain with queue := queue} state)) := by
  have count := underWay_cons same
  have moved : (runCallback {chain with queue := queue} state).underWay = chain.underWay := count
  have rest : queue ⊆ chain.queue := same ▸ List.subset_cons_self _ _
  have closed : (counted chain (runCallback {chain with queue := queue} state)).closes = chain.closes := by
    change chain.closes + ((runCallback {chain with queue := queue} state).underWay - chain.underWay) = chain.closes
    rw [moved,Nat.sub_self,Nat.add_zero]
  refine ⟨fun deferred member => opened.late deferred (rest member),?_,opened.going,?_,?_,fun state member => opened.torn state (rest member),
    fun none' => ?_⟩
  · rw [closed,← opened.underWay]
    exact moved
  · change List.countP _ (chain.told ++ [(chain.connectionState,state)]) = 0
    rw [List.countP_append,List.countP_singleton,opened.going]
    exact opened.untold
  · exact teardowns_eq opened.teardowns id
  · obtain ⟨working,waits⟩ := opened.alive (closed ▸ none')
    refine ⟨working,waits.imp_left ?_⟩
    rintro ⟨deferred,member,opening⟩
    rw [same] at member
    rcases List.mem_cons.mp member with rfl | later
    · cases opening
    · exact ⟨deferred,later,opening⟩

section Last

variable {state : XiState} (memory : answers.alloc = true)
include memory

/-- The last layer forwards nothing and has the user called. -/
theorem last_queue :
    (controlTopicLayerCloseExternally {chain with queue := queue} answers state).queue = queue ++ [.connectionCallback state] := by
  unfold controlTopicLayerCloseExternally connectionStateChanged
  rw [memory]
  rfl

theorem last_kept : (controlTopicLayerCloseExternally {chain with queue := queue} answers state).hasData .mqttLogic = chain.hasData .mqttLogic ∧
    (controlTopicLayerCloseExternally {chain with queue := queue} answers state).told = chain.told ∧
    ended (controlTopicLayerCloseExternally {chain with queue := queue} answers state).connectionState = true := by
  unfold controlTopicLayerCloseExternally connectionStateChanged
  rw [memory]
  refine ⟨rfl,rfl,?_⟩
  change ended (finalState {chain with queue := queue}) = true
  unfold finalState
  split <;> rfl

variable (same : chain.queue = .layer .closeExternally .controlTopic state :: queue)
include same

theorem last_underWay : (controlTopicLayerCloseExternally {chain with queue := queue} answers state).underWay + 1 = chain.underWay ∧
    (counted chain (controlTopicLayerCloseExternally {chain with queue := queue} answers state)).closes = chain.closes := by
  have count : Chain.underWay {chain with queue := queue} + 1 = chain.underWay := underWay_cons same
  have waits : (controlTopicLayerCloseExternally {chain with queue := queue} answers state).resourceWaits = chain.resourceWaits := by
    unfold controlTopicLayerCloseExternally connectionStateChanged
    rw [memory]
    rfl
  have moved : (controlTopicLayerCloseExternally {chain with queue := queue} answers state).underWay =
      Chain.underWay {chain with queue := queue} := by
    unfold Chain.underWay
    rw [last_queue memory,waits,List.countP_append,List.countP_singleton]
    rfl
  refine ⟨moved ▸ count,?_⟩
  change chain.closes + ((controlTopicLayerCloseExternally {chain with queue := queue} answers state).underWay - chain.underWay) = chain.closes
  omega

/-- In the place of the close the user is yet to be told. -/
theorem last_each : (counted chain (controlTopicLayerCloseExternally {chain with queue := queue} answers state)).underWay +
    (counted chain (controlTopicLayerCloseExternally {chain with queue := queue} answers state)).queue.countP Deferred.isCallback +
    (counted chain (controlTopicLayerCloseExternally {chain with queue := queue} answers state)).toldEnd =
      chain.underWay + queue.countP Deferred.isCallback + chain.toldEnd := by
  have moved := (last_underWay memory same).1
  have callbacks := congrArg (List.countP Deferred.isCallback) (@last_queue chain answers queue state memory)
  have told := congrArg (List.countP fun told : ConnectionState × XiState => ended told.1) (@last_kept chain answers queue state memory).2.1
  rw [List.countP_append,List.countP_singleton,if_pos (show (Deferred.connectionCallback state).isCallback = true from rfl)] at callbacks
  change Chain.underWay (controlTopicLayerCloseExternally _ answers state) +
    List.countP _ (controlTopicLayerCloseExternally _ answers state).queue +
    List.countP _ (controlTopicLayerCloseExternally _ answers state).told = _ + _ + List.countP _ chain.told
  omega

/-- The last layer closes for the first time. -/
theorem Opened.last (opened : Opened chain) (told : ∀ deferred ∈ queue, deferred.opens = false) :
    Over (counted chain (controlTopicLayerCloseExternally {chain with queue := queue} answers state)) := by
  have rest : queue ⊆ chain.queue := same ▸ List.subset_cons_self _ _
  have absent := opened.torn state (same ▸ List.mem_cons_self)
  obtain ⟨moved,closed⟩ := last_underWay memory same
  obtain ⟨data,kept,finished⟩ := last_kept memory
  have silent : queue.countP Deferred.isCallback = 0 := by
    refine List.countP_eq_zero.mpr fun deferred member callback => ?_
    cases deferred with
    | connectionCallback state => exact Bool.noConfusion (told _ member)
    | layer func layer state => exact Bool.noConfusion callback
  refine ⟨fun deferred member => ?_,?_,finished,data.trans absent,?_,fun state' member => ?_,?_⟩
  · have member : deferred ∈ queue ++ [.connectionCallback state] := last_queue memory ▸ member
    rcases List.mem_append.mp member with old | new
    · exact opened.late deferred (rest old)
    · cases List.mem_singleton.mp new
      rfl
  · have underWay := opened.underWay
    omega
  · change chain.teardowns + (chain.hasData .mqttLogic && !Chain.hasData _ .mqttLogic).toNat = 1
    rw [data,absent]
    have one := opened.teardowns
    rw [absent] at one
    exact one
  · have member : .layer .connect .controlTopic state' ∈ queue ++ [.connectionCallback state] := last_queue memory ▸ member
    rcases List.mem_append.mp member with old | new
    · rintro rfl
      exact Bool.noConfusion (told _ old)
    · cases List.mem_singleton.mp new
  · rw [closed,last_each memory same,silent,opened.untold,opened.underWay,Nat.add_zero]

/-- And again. -/
theorem Over.last (gone : Over chain) :
    Over (counted chain (controlTopicLayerCloseExternally {chain with queue := queue} answers state)) := by
  have rest : queue ⊆ chain.queue := same ▸ List.subset_cons_self _ _
  obtain ⟨moved,closed⟩ := last_underWay memory same
  obtain ⟨data,kept,finished⟩ := last_kept memory
  refine ⟨fun deferred member => ?_,closed.trans_ne gone.begun,finished,data.trans gone.torn,?_,fun state' member => ?_,?_⟩
  · have member : deferred ∈ queue ++ [.connectionCallback state] := last_queue memory ▸ member
    rcases List.mem_append.mp member with old | new
    · exact gone.late deferred (rest old)
    · cases List.mem_singleton.mp new
      rfl
  · change chain.teardowns + (chain.hasData .mqttLogic && !Chain.hasData _ .mqttLogic).toNat = 1
    rw [gone.torn]
    exact gone.teardowns
  · have member : .layer .connect .controlTopic state' ∈ queue ++ [.connectionCallback state] := last_queue memory ▸ member
    rcases List.mem_append.mp member with old | new
    · exact gone.unopened state' (rest old)
    · cases List.mem_singleton.mp new
  · have each := gone.each
    rw [same,List.countP_cons_of_neg (by exact Bool.false_ne_true)] at each
    rw [closed,last_each memory same,each]

end Last

theorem Over.callback {state : XiState} (gone : Over chain) (same : chain.queue = .connectionCallback state :: queue) :
    Over (counted chain (runCallback {chain with queue := queue} state)) := by
  have moved : (runCallback {chain with queue := queue} state).underWay = chain.underWay := underWay_cons same
  have rest : queue ⊆ chain.queue := same ▸ List.subset_cons_self _ _
  have closed : (counted chain (runCallback {chain with queue := queue} state)).closes = chain.closes := by
    change chain.closes + ((runCallback {chain with queue := queue} state).underWay - chain.underWay) = chain.closes
    rw [moved,Nat.sub_self,Nat.add_zero]
  refine ⟨fun deferred member => gone.late deferred (rest member),closed.trans_ne gone.begun,gone.ended,gone.torn,?_,
    fun state member => gone.unopened state (rest member),?_⟩
  · change chain.teardowns + (chain.hasData .mqttLogic && !chain.hasData .mqttLogic).toNat = 1
    rw [gone.torn]
    exact gone.teardowns
  · have each := gone.each
    unfold toldEnd at each
    rw [same,List.countP_cons_of_pos rfl] at each
    rw [closed]
    change Chain.underWay (runCallback {chain with queue := queue} state) + queue.countP Deferred.isCallback +
      List.countP _ (chain.told ++ [(chain.connectionState,state)]) = chain.closes
    rw [moved,List.countP_append,List.countP_singleton,gone.ended,if_pos rfl]
    omega

theorem Opened.step {event : Input × Answers} (opened : Opened chain) (careful : Careful chain event) :
    Opened (chain.step event) ∨ Over (chain.step event) := by
  obtain ⟨input,answers⟩ := event
  by_cases outside : input = .run
  · subst outside
    cases same : chain.queue with
    | nil =>
      rw [step_run same]
      exact .inl opened
    | cons deferred queue =>
      rw [step_run_cons same]
      have rest : queue ⊆ chain.queue := same ▸ List.subset_cons_self _ _
      have turn : deferred ∈ chain.queue := same ▸ List.mem_cons_self
      by_cases last : ∃ state, deferred = .layer .closeExternally .controlTopic state
      · obtain ⟨state,rfl⟩ := last
        exact .inr (opened.last careful.memory same (careful.told rfl state queue same))
      · by_cases callback : deferred.isCallback = true
        · cases deferred with
          | connectionCallback state => exact .inl (opened.callback same)
          | layer func layer state => exact Bool.noConfusion callback
        · have late := opened.late deferred turn
          have goes : Goes {chain with queue := queue} _ _ _ := runDeferred_goes careful.memory deferred late
            (Bool.not_eq_true _ |>.mp callback) fun state this => last ⟨state,this⟩
          refine .inl (opened.goes rest (underWay_cons same) goes fun none' fine => ?_)
          obtain ⟨working,waits⟩ := opened.alive none'
          have stays : deferred.closing = false := by
            have count := underWay_cons same
            have underWay := opened.underWay
            exact Bool.toNat_eq_zero.mp (by omega)
          refine runDeferred_alive careful.memory (careful.granted rfl deferred queue same) late stays (Bool.toNat_eq_zero.mp fine) working ?_
          rcases waits with ⟨other,member,opening⟩ | later
          · rw [same] at member
            rcases List.mem_cons.mp member with rfl | behind
            · exact .inl opening
            · exact .inr (.inl ⟨other,behind,opening⟩)
          · exact .inr (.inr later)
  · have goes : Goes {chain with queue := chain.queue} (chain.perform input answers) (0 + (chain.begins answers input).toNat) false :=
      (perform_goes careful.memory input outside).cast (Nat.zero_add _).symm
    refine .inl (opened.goes (List.Subset.refl _) rfl goes fun none' fine => ?_)
    have underWay := opened.underWay
    have waits : chain.resourceWaits = 0 := by
      unfold Chain.underWay at underWay
      omega
    exact perform_alive careful.memory outside (Bool.toNat_eq_zero.mp fine) waits (opened.alive none')

theorem opens_connect {deferred : Deferred} (opens : deferred.opens = true) (callback : deferred.isCallback = false) :
    ∃ state, deferred = .layer .connect .controlTopic state ∧ state = .ok := by
  cases deferred with
  | connectionCallback state => exact Bool.noConfusion callback
  | layer func layer state => cases func <;> cases layer <;> first
    | exact Bool.noConfusion opens
    | exact ⟨state,rfl,eq_of_beq opens⟩

theorem Over.step {event : Input × Answers} (gone : Over chain) (memory : event.2.alloc = true) : Over (chain.step event) := by
  obtain ⟨input,answers⟩ := event
  by_cases outside : input = .run
  · subst outside
    cases same : chain.queue with
    | nil =>
      rw [step_run same]
      exact gone
    | cons deferred queue =>
      rw [step_run_cons same]
      have rest : queue ⊆ chain.queue := same ▸ List.subset_cons_self _ _
      have turn : deferred ∈ chain.queue := same ▸ List.mem_cons_self
      by_cases last : ∃ state, deferred = .layer .closeExternally .controlTopic state
      · obtain ⟨state,rfl⟩ := last
        exact gone.last memory same
      · by_cases callback : deferred.isCallback = true
        · cases deferred with
          | connectionCallback state => exact gone.callback same
          | layer func layer state => exact Bool.noConfusion callback
        · have callback := Bool.not_eq_true _ |>.mp callback
          have unopened : deferred.opens = false := by
            refine Bool.not_eq_true _ |>.mp fun opens => ?_
            obtain ⟨state,rfl,fine⟩ := opens_connect opens callback
            exact gone.unopened state turn fine
          have goes : Goes {chain with queue := queue} _ _ _ := runDeferred_goes memory deferred (gone.late deferred turn) callback
            fun state this => last ⟨state,this⟩
          rw [unopened] at goes
          exact gone.goes rest (underWay_cons same) (same ▸ (List.countP_cons_of_neg (callback ▸ Bool.false_ne_true)).symm) goes
  · have goes : Goes {chain with queue := chain.queue} (chain.perform input answers) (0 + (chain.begins answers input).toNat) false :=
      (perform_goes memory input outside).cast (Nat.zero_add _).symm
    exact gone.goes (List.Subset.refl _) rfl rfl goes

/-- Nothing but the next init is there. -/
theorem Early.idle' {layer : Layer} {input : Input} (early : Early chain layer) (outside : input ≠ .run) :
    chain.perform input answers = chain := by
  have dead (other : Layer) (made : other ≠ .controlTopic) : chain.operational other = false := by
    unfold operational
    rw [early.data other made,Bool.and_false]
  have absent : chain.hasData .mqttLogic = false := early.data .mqttLogic nofun
  cases input with
  | run => exact absurd rfl outside
  | socketReady =>
    unfold perform
    rw [early.socket]
    rfl
  | receives =>
    unfold perform ioNetLayerReceives
    rw [dead .io nofun]
    rfl
  | ioFails state =>
    unfold perform ioNetLayerFails
    rw [dead .io nofun]
    rfl
  | codecFails state =>
    unfold perform mqttCodecLayerFails
    rw [dead .mqttCodec nofun]
    rfl
  | terminal =>
    unfold perform mqttLogicLayerTerminal
    rw [dead .mqttLogic nofun]
    rfl
  | reconnect =>
    unfold perform doReconnect
    rw [absent]
    rfl
  | shutdown =>
    unfold perform doShutdown
    rw [absent]
    rfl
  | connectEnds state =>
    unfold perform doMqttConnect
    rw [early.idle]
    exact if_neg fun both => Bool.noConfusion both.1
  | connectTimeout =>
    unfold perform doMqttConnectTimeout
    rw [early.idle]
    rfl
  | resourceClosed state =>
    unfold perform resourceClosed
    rw [early.waits]

/-- The logic layer is made. -/
theorem Early.opened {layer : Layer} (early : Early chain layer) {data : Layer → Bool}
    {layerState : Layer → LayerState} {connection : ConnectionState} (going : ended connection = false)
    (late : ∀ deferred ∈ queue, deferred.early = false) (open' : queue.countP Deferred.closing = 0)
    (torn : ∀ state, .layer .closeExternally .controlTopic state ∉ queue) (made : data .mqttLogic = true)
    (working : (layerState .mqttLogic).notOperational = false) (waits : ∃ deferred ∈ queue, deferred.opening = true) :
    Opened (counted chain {chain with
      hasData := data,layerState := layerState,connectionState := connection,queue := queue}) := by
  have none' : Chain.underWay {chain with hasData := data,layerState := layerState,connectionState := connection,queue := queue} = 0 := by
    change queue.countP Deferred.closing + chain.resourceWaits = 0
    rw [open',early.waits]
  have closed : (counted chain {chain with
      hasData := data,layerState := layerState,connectionState := connection,queue := queue}).closes = 0 := by
    change chain.closes + (Chain.underWay {chain with
      hasData := data,layerState := layerState,connectionState := connection,queue := queue} - chain.underWay) = 0
    rw [none',early.none',Nat.zero_sub]
  refine ⟨late,none'.trans closed.symm,going,?_,?_,fun state member => absurd member (torn state),fun _ => ⟨?_,.inl waits⟩⟩
  · change List.countP _ chain.told = 0
    rw [early.untold]
    rfl
  · change chain.teardowns + (chain.hasData .mqttLogic && !data .mqttLogic).toNat + (data .mqttLogic).toNat = 1
    rw [early.whole,early.data .mqttLogic nofun,made]
    rfl
  · change (!(layerState .mqttLogic).notOperational && data .mqttLogic) = true
    rw [working,made]
    rfl

/-- A layer above the codec has its turn, and the logic layer is not made yet. -/
theorem Early.next {layer target : Layer} (early : Early chain layer) (first : target = .controlTopic ∨ target = .mqttLogic)
    {data : Layer → Bool} {layerState : Layer → LayerState} (absent : ∀ other, other ≠ .controlTopic → data other = false)
    (rest : ∃ state, queue = [.layer .init target state]) :
    Early (counted chain {chain with hasData := data,layerState := layerState,queue := queue}) target := by
  have none' : Chain.underWay {chain with hasData := data,layerState := layerState,queue := queue} = 0 := by
    change queue.countP Deferred.closing + chain.resourceWaits = 0
    rw [early.waits]
    obtain ⟨state,rfl⟩ := rest
    rfl
  refine ⟨first,rest,absent,early.waits,early.socket,early.idle,early.untold,?_,?_,early.state⟩
  · change chain.closes + (Chain.underWay {chain with hasData := data,layerState := layerState,queue := queue} - chain.underWay) = 0
    rw [none',early.none',Nat.zero_sub]
  · change chain.teardowns + (chain.hasData .mqttLogic && !data .mqttLogic).toNat = 0
    rw [early.whole,early.data .mqttLogic nofun]
    rfl

/-- The phases of one connection. -/
def Phase (chain : Chain) : Prop := (∃ layer, Early chain layer) ∨ Opened chain ∨ Over chain

theorem Early.step {layer : Layer} {event : Input × Answers} (early : Early chain layer) (careful : Careful chain event) :
    Phase (chain.step event) := by
  obtain ⟨input,answers⟩ := event
  have memory : answers.alloc = true := careful.memory
  by_cases outside : input = .run
  · subst outside
    obtain ⟨state,same⟩ := early.queue
    rw [step_run_cons same]
    rcases early.first with rfl | rfl
    · have granted : answers.layerAlloc = true := careful.granted rfl _ _ same rfl
      change Phase (counted chain (controlTopicLayerInit {chain with queue := []} answers state))
      unfold controlTopicLayerInit onPrev continueWith
      rw [granted,Bool.or_true,memory]
      refine .inl ⟨.mqttLogic,early.next (.inr rfl) (fun other made => ?_) ⟨state,rfl⟩⟩
      exact (Function.update_of_ne made _ _).trans (early.data other made)
    · have granted : answers.layerAlloc = true := careful.granted rfl _ _ same rfl
      change Phase (counted chain (mqttLogicLayerInit {chain with queue := []} answers state))
      unfold mqttLogicLayerInit onPrev continueWith
      rw [granted,memory]
      refine .inr (.inl (early.opened rfl (fun deferred member => ?_) rfl (fun state' member => ?_) rfl rfl
        ⟨.layer .init .mqttCodec state,List.mem_singleton_self _,rfl⟩))
      · cases List.mem_singleton.mp member
        rfl
      · cases List.mem_singleton.mp member
  · change Phase (counted chain (chain.perform input answers))
    rw [early.idle' outside,counted_self]
    exact .inl ⟨layer,early⟩

theorem Phase.step {event : Input × Answers} (phase : Phase chain) (careful : Careful chain event) : Phase (chain.step event) := by
  rcases phase with ⟨layer,early⟩ | opened | gone
  · exact early.step careful
  · exact .inr (opened.step careful)
  · exact .inr (.inr (gone.step careful.memory))

/-- As many ends are told as closes have begun, when all of them are closed. -/
theorem Phase.toldEnd (phase : Phase chain) : chain.teardowns ≤ 1 ∧ chain.toldEnd ≤ chain.closes ∧
    (chain.Quiet → chain.closes ≠ 0 → chain.teardowns = 1 ∧ chain.toldEnd = chain.closes) := by
  rcases phase with ⟨layer,early⟩ | opened | gone
  · have untold : chain.toldEnd = 0 := by
      unfold Chain.toldEnd
      rw [early.untold]
      rfl
    exact ⟨early.whole ▸ Nat.zero_le 1,untold ▸ Nat.zero_le _,fun _ begun => absurd early.none' begun⟩
  · refine ⟨(Nat.le_add_right _ _).trans (Nat.le_of_eq opened.teardowns),opened.untold ▸ Nat.zero_le _,fun quiet begun => ?_⟩
    exact absurd (opened.underWay.symm.trans quiet.1) begun
  · refine ⟨Nat.le_of_eq gone.teardowns,gone.each ▸ Nat.le_add_left _ _,fun quiet _ => ⟨gone.teardowns,?_⟩⟩
    have silent : chain.queue.countP Deferred.isCallback = 0 :=
      List.countP_eq_zero.mpr fun deferred member => Bool.not_eq_true _ |>.mpr (quiet.2 deferred member)
    have each := gone.each
    have done := quiet.1
    omega

theorem Phase.lasts (phase : Phase chain) (none' : chain.closes = 0) : chain.Waits := by
  rcases phase with ⟨layer,early⟩ | opened | gone
  · obtain ⟨state,same⟩ := early.queue
    refine .inl ⟨.layer .init layer state,same ▸ List.mem_singleton_self _,?_⟩
    rcases early.first with rfl | rfl <;> rfl
  · exact (opened.alive none').waits
  · exact absurd none' gone.begun

theorem Phase.closedOnce (phase : Phase chain) (single : chain.closes ≤ 1) : ClosedOnce chain := by
  obtain ⟨torn,most,each⟩ := phase.toldEnd
  refine ⟨torn,most.trans single,fun quiet begun => ?_,phase.lasts⟩
  obtain ⟨once,told⟩ := each quiet begun
  exact ⟨once,by omega⟩

theorem underWay_continueWith {func : LayerFunc} {source target : Layer} {state : XiState} :
    (chain.continueWith state func source (some target) true).underWay = chain.underWay + (Deferred.layer func target state).closing.toNat := by
  unfold Chain.underWay
  change List.countP _ (chain.queue ++ [.layer func target state]) + chain.resourceWaits = _
  rw [List.countP_append,List.countP_singleton]
  cases (Deferred.layer func target state).closing
  · rfl
  · simp only [if_true,Bool.toNat_true]
    omega

/-- The calls of the top layers before the connection opens, and a callback, close nothing more. -/
theorem runDeferred_few {deferred : Deferred} (memory : answers.alloc = true) (first : deferred.early = true ∨ deferred.isCallback = true) :
    (chain.runDeferred answers deferred).underWay ≤ chain.underWay + deferred.closing.toNat ∧ chain.deferredBegins answers deferred = false := by
  match deferred with
  | .connectionCallback state => exact ⟨Nat.le_refl _,rfl⟩
  | .layer .init .controlTopic state =>
    refine ⟨?_,rfl⟩
    change (chain.controlTopicLayerInit answers state).underWay ≤ _
    unfold controlTopicLayerInit onPrev
    split
    · rw [memory]
      exact Nat.le_of_eq underWay_continueWith
    · exact Nat.le_refl _
  | .layer .init .mqttLogic state =>
    refine ⟨?_,rfl⟩
    change (chain.mqttLogicLayerInit answers state).underWay ≤ _
    unfold mqttLogicLayerInit onPrev
    split
    · rw [memory]
      exact Nat.le_of_eq underWay_continueWith
    · exact Nat.le_refl _
  | .layer .close .controlTopic state =>
    refine ⟨?_,rfl⟩
    change (chain.controlTopicLayerClose answers state).underWay ≤ _
    unfold controlTopicLayerClose onPrev
    rw [memory]
    exact Nat.le_of_eq underWay_continueWith

/-- A step counts the close that it begins. -/
theorem step_closes {event : Input × Answers} (memory : event.2.alloc = true) :
    (chain.step event).closes = chain.closes + (chain.begins event.2 event.1).toNat := by
  obtain ⟨input,answers⟩ := event
  have memory : answers.alloc = true := memory
  by_cases outside : input = .run
  · subst outside
    cases same : chain.queue with
    | nil =>
      rw [step_run same]
      exact (congrArg (chain.closes + ·.toNat) (begins_nil same)).symm
    | cons deferred queue =>
      rw [step_run_cons same]
      change _ = chain.closes + (chain.begins answers .run).toNat
      rw [begins_run same]
      have count := underWay_cons same
      by_cases last : ∃ state, deferred = .layer .closeExternally .controlTopic state
      · obtain ⟨state,rfl⟩ := last
        exact (last_underWay memory same).2
      · by_cases first : deferred.early = true ∨ deferred.isCallback = true
        · obtain ⟨few,idle⟩ := @runDeferred_few {chain with queue := queue} answers deferred memory first
          rw [idle]
          change chain.closes + (Chain.underWay (runDeferred {chain with queue := queue} answers deferred) - chain.underWay) = chain.closes
          omega
        · obtain ⟨late,callback⟩ := not_or.mp first
          have goes : Goes {chain with queue := queue} _ _ _ := runDeferred_goes memory deferred (Bool.not_eq_true _ |>.mp late)
            (Bool.not_eq_true _ |>.mp callback) fun state this => last ⟨state,this⟩
          exact (goes.counts count).2
  · have goes : Goes {chain with queue := chain.queue} (chain.perform input answers) (0 + (chain.begins answers input).toNat) false :=
      (perform_goes memory input outside).cast (Nat.zero_add _).symm
    exact (goes.counts rfl).2

theorem step_few {event : Input × Answers} (memory : event.2.alloc = true) (single : Single chain event) (few : chain.closes ≤ 1) :
    (chain.step event).closes ≤ 1 := by
  rw [step_closes memory]
  cases begins : chain.begins event.2 event.1 with
  | false => exact few
  | true =>
    rw [single begins]
    exact Nat.le_refl 1

end Phases

section Runs

variable {chain : Chain} {events : List (Input × Answers)}

theorem phase_run (phase : Phase chain) (careful : Runs.Admissible step Careful chain events) : Runs.Always step Phase chain events :=
  Runs.always_of_step (fun _ _ phase careful => Phase.step phase careful) phase careful

theorem closes_le_final (careful : Runs.Admissible step Careful chain events) : chain.closes ≤ (Runs.final step chain events).closes := by
  induction events generalizing chain with
  | nil => exact Nat.le_refl _
  | cons event events ih =>
    have counts := @step_closes chain event careful.1.memory
    exact (counts ▸ Nat.le_add_right _ _ : chain.closes ≤ (chain.step event).closes).trans (ih careful.2)

/-- One close at most is begun just when none is begun after the first. -/
theorem single_iff (careful : Runs.Admissible step Careful chain events) (few : chain.closes ≤ 1) :
    Runs.Admissible step Single chain events ↔ (Runs.final step chain events).closes ≤ 1 := by
  induction events generalizing chain with
  | nil => exact iff_of_true trivial few
  | cons event events ih =>
    have counts := @step_closes chain event careful.1.memory
    have grows := closes_le_final careful.2
    constructor
    · rintro ⟨single,rest⟩
      exact (ih careful.2 (step_few careful.1.memory single few)).mp rest
    · intro most
      have few' : (chain.step event).closes ≤ 1 := grows.trans most
      refine ⟨fun begins => ?_,(ih careful.2 few').mpr most⟩
      rw [counts,begins,Bool.toNat_true] at few'
      omega

end Runs

theorem start_early : Early start .controlTopic :=
  ⟨.inl rfl,⟨.ok,rfl⟩,fun _ _ => rfl,rfl,rfl,rfl,rfl,rfl,rfl,rfl⟩

/-- Steps in which nothing outside of the chain fails. -/
def quietly (inputs : List Input) : List (Input × Answers) := inputs.map fun input => (input,{})

/-- The connection is opened by a server that answers. -/
def opening : List (Input × Answers) :=
  quietly [.run,.run,.run,.run,.run] ++ (.run,{outcome := .again}) ::
    quietly [.socketReady,.run,.run,.run,.connectEnds .ok,.run,.run]

def shutDown : List (Input × Answers) := opening ++ quietly (.shutdown :: List.replicate 15 .run)

/-- A read fails, and the keepalive has its timeout before the layers are closed. -/
def closedTwice : List (Input × Answers) := opening ++ quietly (.ioFails .socketReadError :: .reconnect :: List.replicate 15 .run)

end Chain

end XivelyClient.LayerChain
