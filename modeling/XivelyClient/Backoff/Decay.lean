import XivelyClient.Backoff.Status
import XivelyClient.Contexts

/-! The penalty together with the contexts, which make and drop the tables and the dispatcher of its event. Memory is there. -/
namespace XivelyClient.Backoff

/-- `XI_BACKOFF_LUT` and `XI_DECAY_LUT` -/
def defaultRows : List (UInt32 × UInt32) :=
  [(0,4),(2,4),(4,8),(8,16),(16,30),(32,30),(64,30),(128,30),(256,30),(512,30)]

/-- The globals, with the number of cooldown events in the dispatcher. -/
structure World where
  contexts : Contexts.Registry := {}
  status : Status := {}
  scheduled : Nat := 0

inductive Happening
  | create (initialized : Bool) (address : Nat)
  | delete (contextHandle : Int32)
  | update (state : XiState)
  | cooldown

namespace World

/-- The creation is the one that makes what the contexts share. -/
def makesShared (world : World) (initialized : Bool) : Prop := initialized = true ∧ world.contexts.globals.globalsRefCount + 1 = 1

instance (world : World) (initialized : Bool) : Decidable (world.makesShared initialized) :=
  inferInstanceAs (Decidable (_ ∧ _))

/-- A new dispatcher has no events. -/
def created (world : World) (initialized : Bool) (contexts : Contexts.Registry) : World :=
  if world.makesShared initialized then
    ⟨contexts,(world.status.configureUsingData defaultRows .unmanaged true true).2,0⟩
  else {world with contexts := contexts}

/-- The last context takes the event, the tables and the dispatcher with it. -/
def deleted (world : World) (contexts : Contexts.Registry) : World :=
  if world.contexts.globals.globalsRefCount ≠ 0 ∧ contexts.globals.globalsRefCount = 0 then
    ⟨contexts,Status.releaseLuts {world.status with nextUpdate := false},0⟩
  else {world with contexts := contexts}

/-- A handle that becomes set has a new event. -/
def updated (world : World) (status : Status) : World :=
  {world with status := status,scheduled := world.scheduled + if status.nextUpdate && !world.status.nextUpdate then 1 else 0}

def next (maxNumContexts : Int32) (world : World) : Happening → Option World
  | .create initialized address =>
    (Contexts.next maxNumContexts world.contexts (.create initialized {} address)).map (world.created initialized)
  | .delete contextHandle => (Contexts.next maxNumContexts world.contexts (.delete contextHandle)).map world.deleted
  | .update state => (world.status.updateBackoffPenalty state true).map world.updated
  | .cooldown =>
    -- the dispatcher takes the event out and unsets its handle before the call
    if 0 < world.scheduled then
      (world.status.applyCooldown true).map
        (updated {world with status := {world.status with nextUpdate := false},scheduled := world.scheduled - 1})
    else none

end World

/-- While there is a dispatcher, it has one cooldown event if there is a penalty, and no penalty is left without one. -/
def Decays (world : World) : Prop :=
  world.contexts.globals.evtdInstance = true →
    (0 < world.status.backoffLutI → world.scheduled = 1) ∧ (world.scheduled = 0 → world.status.backoffLutI = 0)

/-- The step leads to a state that decays. -/
def LeadsToDecay (maxNumContexts : Int32) (world : World) (event : Happening) : Prop :=
  ∀ world', world.next maxNumContexts event = some world' → Decays world'

/-- What the contexts share is only made while there is no penalty. -/
def StartsRested (maxNumContexts : Int32) (world : World) : Happening → Prop
  | .create initialized address => Contexts.next maxNumContexts world.contexts (.create initialized {} address) ≠ none →
      world.makesShared initialized → world.status.backoffLutI = 0
  | _ => True

section Shared

open XivelyClient.Contexts

variable {maxNumContexts : Int32} {globals globals' : Globals} {registry registry' : Registry} {address : Nat}

theorem createInner_evtd {state : XiState} {context : Option Nat} {allocs : Allocs}
    (made : createContextWithCustomLayersAndEvtd maxNumContexts globals true allocs address = some (state,context,globals')) :
    globals'.evtdInstance = (started globals allocs).2.evtdInstance := by
  rw [createInner_eq] at made
  generalize started globals allocs = outcome at made ⊢
  obtain ⟨jumps,shared⟩ := outcome
  cases jumps with
  | some stop =>
    obtain ⟨_,_,rfl⟩ : stop = state ∧ none = context ∧ shared = globals' := by simpa using made
    rfl
  | none =>
    dsimp only at made
    split at made
    · obtain ⟨_,_,rfl⟩ : XiState.outOfMemory = state ∧ none = context ∧ shared = globals' := by simpa using made
      rfl
    split at made
    · cases made
    · obtain ⟨vector,_,rest⟩ := Option.bind_eq_some_iff.mp made
      obtain ⟨⟨answer,vector'⟩,_,same⟩ := Option.map_eq_some_iff.mp rest
      obtain ⟨_,_,rfl⟩ : answer = state ∧ (if answer = .ok then some address else none) = context ∧
          {shared with contextHandlesVector := some vector'} = globals' := by simpa using same
      rfl

theorem createContext_evtd {answer : Except XiState Int} {allocs : Allocs}
    (made : createContext maxNumContexts globals true allocs address = some (answer,globals')) :
    globals'.evtdInstance = (started globals allocs).2.evtdInstance := by
  obtain ⟨⟨state,context,g⟩,inner,outer⟩ := Option.bind_eq_some_iff.mp made
  have same := createInner_evtd inner
  dsimp only at outer
  split at outer
  · obtain ⟨v,_,rest⟩ := Option.bind_eq_some_iff.mp outer
    obtain ⟨⟨answer',handle⟩,_,pair⟩ := Option.map_eq_some_iff.mp rest
    obtain ⟨_,rfl⟩ : _ ∧ g = globals' := by simpa using pair
    exact same
  · obtain ⟨_,rfl⟩ : _ ∧ g = globals' := by simpa using outer
    exact same

/-- The first context makes the dispatcher, any other leaves it. -/
theorem created_evtd {initialized : Bool} (stepped : Contexts.next maxNumContexts registry (.create initialized {} address) = some registry') :
    registry'.globals.evtdInstance =
      (registry.globals.evtdInstance || (initialized && decide (registry.globals.globalsRefCount + 1 = 1))) := by
  rw [Contexts.next] at stepped
  split at stepped
  · contradiction
  · obtain ⟨⟨answer,globals⟩,made,same⟩ := Option.map_eq_some_iff.mp stepped
    have kept : registry'.globals = globals := by
      rw [← same]
      cases answer <;> rfl
    rw [kept]
    cases initialized with
    | false =>
      obtain ⟨_,rfl⟩ : Except.error XiState.notInitialized = answer ∧ registry.globals = globals := by
        simpa [createContext,createContextWithCustomLayersAndEvtd] using made
      simp
    | true =>
      rw [createContext_evtd made,started]
      split
      · rename_i first
        have first : registry.globals.globalsRefCount + 1 = 1 := first
        simp [createGlobals,first]
      · rename_i other
        have other : ¬registry.globals.globalsRefCount + 1 = 1 := other
        simp [other,Globals.counted]

/-- The last context drops the dispatcher, any other leaves it. -/
theorem deleted_evtd {contextHandle : Int32} (stepped : Contexts.next maxNumContexts registry (.delete contextHandle) = some registry') :
    registry'.globals.evtdInstance = if registry.globals.globalsRefCount ≠ 0 ∧ registry'.globals.globalsRefCount = 0 then false
      else registry.globals.evtdInstance := by
  rw [Contexts.next] at stepped
  split at stepped
  · obtain ⟨⟨state,globals⟩,deleted,rfl⟩ := Option.map_eq_some_iff.mp stepped
    obtain ⟨vector,_,rest⟩ := Option.bind_eq_some_iff.mp deleted
    obtain ⟨context,_,rest⟩ := Option.bind_eq_some_iff.mp rest
    obtain ⟨⟨answer,vector'⟩,_,same⟩ := Option.map_eq_some_iff.mp rest
    simp only at same
    split at same
    · obtain ⟨_,rfl⟩ := Prod.mk.inj same
      simp only
      rw [if_neg (fun dropped => dropped.1 dropped.2)]
    · obtain ⟨_,rfl⟩ := Prod.mk.inj same
      by_cases last : registry.globals.globalsRefCount - 1 = 0
      · have one : registry.globals.globalsRefCount ≠ 0 := by
          intro zero
          rw [zero] at last
          exact absurd last (by decide)
        simp [last,one]
      · simp [last]
  · contradiction

end Shared

/-- There is an event, of which the handle is set, exactly if there is a penalty. -/
def Pending (status : Status) (scheduled : Nat) : Prop :=
  (0 < status.backoffLutI ∧ status.nextUpdate = true ∧ scheduled = 1) ∨
    (status.backoffLutI ≤ 0 ∧ status.nextUpdate = false ∧ scheduled = 0)

/-- With a dispatcher there are the tables, and an event exactly if there is a penalty; without one there is none of this. -/
structure Sound (world : World) : Prop where
  nonneg : 0 ≤ world.status.backoffLutI
  small : world.status.backoffLutI < 10
  running : world.contexts.globals.evtdInstance = true →
    (∃ backoffLut decayLut, Installed world.status backoffLut decayLut 10) ∧ Pending world.status world.scheduled
  stopped : world.contexts.globals.evtdInstance = false →
    world.status.backoffLut = none ∧ world.status.nextUpdate = false ∧ world.scheduled = 0

section Steps

variable {maxNumContexts : Int32} {world world' : World} {event : Happening} {contexts : Contexts.Registry}
  {backoffLut decayLut : XiVector UInt32} {status status' : Status}

theorem Sound.decays (sound : Sound world) : Decays world := by
  intro running
  have nonneg := sound.nonneg
  rcases (sound.running running).2 with ⟨penalty,_,one⟩ | ⟨rested,_,none⟩
  · exact ⟨fun _ => one,fun none => absurd (one.symm.trans none) (by decide)⟩
  · exact ⟨fun penalty => absurd penalty (Int.not_lt.mpr rested),fun _ => le_antisymm rested nonneg⟩

theorem Installed.restartable {n : Nat} (installed : Installed status backoffLut decayLut n) :
    status.restartUpdateTime true = some {status with nextUpdate := true} := by
  obtain ⟨row,found⟩ : ∃ row, Status.at? status.decayLut status.backoffLutI = some row := by
    have nonneg := installed.nonneg
    have inside := installed.inside
    have length : status.backoffLutI.toNat < decayLut.array.length := by
      rw [installed.decayLength]
      omega
    exact ⟨_,by rw [Status.at?,installed.decay,Option.bind_some,if_pos nonneg,List.getElem?_eq_getElem length]⟩
  rw [Status.restartUpdateTime,found,Option.map_some,Bool.or_true]

theorem Installed.penalized (installed : Installed status backoffLut decayLut 10) :
    ∃ status', status.incBackoffPenalty true = some status' ∧ Installed status' backoffLut decayLut 10 ∧ 0 < status'.backoffLutI ∧
      status'.nextUpdate = true := by
  obtain ⟨middle,incremented,installed'⟩ := installed.incremented
  have positive : 0 < middle.backoffLutI := by
    have nonneg := installed.nonneg
    rw [Status.incremented,installed.backoff] at incremented
    obtain rfl := Option.some.inj incremented
    simp only [installed.elemNo,indexType]
    omega
  refine ⟨{middle with nextUpdate := true},?_,installed'.move rfl rfl installed'.nonneg installed'.inside,positive,rfl⟩
  rw [Status.incBackoffPenalty,incremented,Option.bind_some,installed'.restartable]

/-- The handle becomes set, or it was set and the event is there. -/
theorem updated_scheduled (set : status.nextUpdate = true) (event : Pending world.status world.scheduled) :
    (world.updated status).scheduled = 1 := by
  rw [World.updated,set]
  rcases event with ⟨_,was,one⟩ | ⟨_,was,none⟩
  · rw [was,one]
    rfl
  · rw [was,none]
    rfl

theorem Sound.update (sound : Sound world) {state : XiState} (updated : world.status.updateBackoffPenalty state true = some status') :
    Sound (world.updated status') := by
  rw [Status.updateBackoffPenalty] at updated
  simp only at updated
  split at updated
  · obtain rfl := Option.some.inj updated
    have same : (world.updated {world.status with backoffClass := Mqtt.Logic.backoffClassifyState state}).scheduled = world.scheduled := by
      simp [World.updated]
    refine ⟨sound.nonneg,sound.small,fun running => ?_,fun stopped => ?_⟩
    · obtain ⟨⟨backoffLut,decayLut,installed⟩,event⟩ := sound.running running
      rw [same]
      exact ⟨⟨backoffLut,decayLut,installed.move rfl rfl installed.nonneg installed.inside⟩,event⟩
    · rw [same]
      exact sound.stopped stopped
  · cases running : world.contexts.globals.evtdInstance with
    | false =>
      rw [Status.incBackoffPenalty,Status.incremented,(sound.stopped running).1] at updated
      contradiction
    | true =>
      obtain ⟨⟨backoffLut,decayLut,installed⟩,event⟩ := sound.running running
      have classed : Installed {world.status with backoffClass := Mqtt.Logic.backoffClassifyState state} backoffLut decayLut 10 :=
        installed.move rfl rfl installed.nonneg installed.inside
      obtain ⟨result,increased,installed',positive,set⟩ := classed.penalized
      obtain rfl : result = status' := Option.some.inj (increased.symm.trans updated)
      refine ⟨installed'.nonneg,installed'.inside,fun _ => ⟨⟨backoffLut,decayLut,installed'⟩,?_⟩,fun stopped => ?_⟩
      · exact .inl ⟨positive,set,updated_scheduled set event⟩
      · exact absurd (running.symm.trans stopped) (by decide)

theorem Sound.cooldown (sound : Sound world) (scheduled : 0 < world.scheduled)
    (cooled : world.status.applyCooldown true = some status') :
    Sound (World.updated {world with status := {world.status with nextUpdate := false},scheduled := world.scheduled - 1} status') := by
  cases running : world.contexts.globals.evtdInstance with
  | false => exact absurd (sound.stopped running).2.2 scheduled.ne'
  | true =>
    obtain ⟨⟨backoffLut,decayLut,installed⟩,event⟩ := sound.running running
    have one : world.scheduled = 1 := by
      rcases event with ⟨_,_,one⟩ | ⟨_,_,none⟩
      · exact one
      · exact absurd none scheduled.ne'
    have installed' := installed.cooled
    have unset : world.status.cooled.nextUpdate = false := by
      unfold Status.cooled
      split <;> rfl
    rw [Status.applyCooldown] at cooled
    split at cooled
    · rename_i penalty
      rw [installed'.restartable] at cooled
      obtain rfl := Option.some.inj cooled
      refine ⟨installed'.nonneg,installed'.inside,fun _ => ⟨⟨backoffLut,decayLut,?_⟩,.inl ⟨penalty,rfl,?_⟩⟩,fun stopped => ?_⟩
      · exact installed'.move rfl rfl installed'.nonneg installed'.inside
      · simp [World.updated,one]
      · exact absurd (running.symm.trans stopped) (by decide)
    · rename_i rested
      obtain rfl := Option.some.inj cooled
      refine ⟨installed'.nonneg,installed'.inside,fun _ => ⟨⟨backoffLut,decayLut,installed'⟩,.inr ⟨?_,unset,?_⟩⟩,fun stopped => ?_⟩
      · exact Int.not_lt.mp rested
      · simp [World.updated,one,unset]
      · exact absurd (running.symm.trans stopped) (by decide)

theorem configured_default (zero : status.backoffLutI = 0) :
    ∃ backoffLut decayLut, Installed (status.configureUsingData defaultRows .unmanaged true true).2 backoffLut decayLut 10 := by
  rw [configured (by decide)]
  exact ⟨_,_,rfl,rfl,rfl,rfl,rfl,by decide,by decide,zero.ge,zero.trans_lt (by decide)⟩

/-- A creation keeps things sound if it finds no penalty or makes nothing to share. -/
theorem Sound.create (sound : Sound world) {initialized : Bool} {address : Nat}
    (stepped : Contexts.next maxNumContexts world.contexts (.create initialized {} address) = some contexts)
    (rested : world.makesShared initialized → world.status.backoffLutI = 0) : Sound (world.created initialized contexts) := by
  have running := created_evtd stepped
  rw [World.created]
  split
  · rename_i makes
    have zero := rested makes
    have evtd : contexts.globals.evtdInstance = true := by rw [running,makes.1,decide_eq_true makes.2,Bool.and_self,Bool.or_true]
    have unset : world.status.nextUpdate = false := by
      cases before : world.contexts.globals.evtdInstance with
      | false => exact (sound.stopped before).2.1
      | true =>
        rcases (sound.running before).2 with ⟨penalty,_⟩ | ⟨_,unset,_⟩
        · exact absurd zero penalty.ne'
        · exact unset
    have tables := configured_default zero
    rw [configured (by decide)] at tables ⊢
    refine ⟨zero.ge,zero.trans_lt (by decide),fun _ => ⟨tables,.inr ⟨zero.le,unset,rfl⟩⟩,fun stopped => ?_⟩
    exact absurd (evtd.symm.trans stopped) (by decide)
  · rename_i other
    have same : contexts.globals.evtdInstance = world.contexts.globals.evtdInstance := by
      rw [running]
      cases initialized with
      | false => simp
      | true => rw [Bool.true_and,decide_eq_false fun first => other ⟨rfl,first⟩,Bool.or_false]
    exact ⟨sound.nonneg,sound.small,fun running => sound.running (same.symm.trans running),
      fun stopped => sound.stopped (same.symm.trans stopped)⟩

theorem Sound.delete (sound : Sound world) {contextHandle : Int32}
    (stepped : Contexts.next maxNumContexts world.contexts (.delete contextHandle) = some contexts) : Sound (world.deleted contexts) := by
  have running := deleted_evtd stepped
  rw [World.deleted]
  split
  · rename_i last
    rw [if_pos last] at running
    exact ⟨sound.nonneg,sound.small,fun evtd => absurd (running.symm.trans evtd) (by decide),fun _ => ⟨rfl,rfl,rfl⟩⟩
  · rename_i other
    rw [if_neg other] at running
    exact ⟨sound.nonneg,sound.small,fun evtd => sound.running (running.symm.trans evtd),
      fun stopped => sound.stopped (running.symm.trans stopped)⟩

theorem Sound.next (sound : Sound world) (rested : StartsRested maxNumContexts world event)
    (stepped : world.next maxNumContexts event = some world') : Sound world' := by
  cases event with
  | create initialized address =>
    obtain ⟨contexts,made,rfl⟩ := Option.map_eq_some_iff.mp stepped
    exact sound.create made (rested (by rw [made]; exact Option.some_ne_none _))
  | delete contextHandle =>
    obtain ⟨contexts,made,rfl⟩ := Option.map_eq_some_iff.mp stepped
    exact sound.delete made
  | update state =>
    obtain ⟨status,updated,rfl⟩ := Option.map_eq_some_iff.mp stepped
    exact sound.update updated
  | cooldown =>
    rw [World.next] at stepped
    split at stepped
    · obtain ⟨status,cooled,rfl⟩ := Option.map_eq_some_iff.mp stepped
      exact sound.cooldown ‹_› cooled
    · contradiction

/-- Shared parts that are made while there is a penalty have no event for it. -/
theorem startsRested_of_decays (decays : LeadsToDecay maxNumContexts world event) :
    StartsRested maxNumContexts world event := by
  cases event with
  | create initialized address =>
    intro possible makes
    obtain ⟨contexts,made⟩ := Option.ne_none_iff_exists'.mp possible
    have after := decays _ (by rw [World.next,made]; rfl)
    have evtd : contexts.globals.evtdInstance = true := by
      rw [created_evtd made,makes.1,decide_eq_true makes.2,Bool.and_self,Bool.or_true]
    rw [World.created,if_pos makes,configured (by decide)] at after
    exact (after evtd).2 rfl
  | delete => trivial
  | update => trivial
  | cooldown => trivial

end Steps

/-- In a run of creations and deletions of contexts, penalties and cooldowns, every penalty that is left has its event exactly if
the shared parts are only made while there is no penalty. -/
theorem each_decays_iff (maxNumContexts : Int32) (events : List Happening) :
    Runs.Each (World.next maxNumContexts) (LeadsToDecay maxNumContexts) {} events ↔
      Runs.Each (World.next maxNumContexts) (StartsRested maxNumContexts) {} events := by
  have same (world : World) (event : Happening) (sound : Sound world) :
      LeadsToDecay maxNumContexts world event ↔ StartsRested maxNumContexts world event :=
    ⟨startsRested_of_decays,fun rested _ stepped => (sound.next rested stepped).decays⟩
  refine Runs.each_iff (I := Sound) same ?_ ⟨le_rfl,by decide,nofun,fun _ => ⟨rfl,rfl,rfl⟩⟩
  intro world event world' sound decays stepped
  exact sound.next ((same world event sound).mp decays) stepped

/-- The last context is deleted under a penalty, and then there is a new one. -/
theorem penalty_outlives : ¬∀ (maxNumContexts : Int32) (events : List Happening),
    Runs.Each (World.next maxNumContexts) (LeadsToDecay maxNumContexts) {} events := by
  intro claim
  obtain ⟨_,each⟩ := claim 1 [.create true 7,.update .timeout,.delete 0,.create true 7]
  obtain ⟨_,each⟩ := each _ rfl
  obtain ⟨_,each⟩ := each _ rfl
  obtain ⟨decays,_⟩ := each _ rfl
  have stuck := (decays _ rfl rfl).2 rfl
  exact absurd stuck (by decide)

end XivelyClient.Backoff
